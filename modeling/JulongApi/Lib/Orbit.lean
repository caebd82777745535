/-
Boundaries of a schedule.

A schedule is a function that gives the next boundary after a moment, so the boundaries
after `start` are `f start`, `f (f start)` and so on.  `crossed` counts those not after a
given moment; it takes fuel, and on the integers the distance is enough of it (`crossings`).

More of them are crossed as time goes on.  Where the schedule leads ahead in order, the count
grows by one between a moment and its next boundary, wherever the moment lies
(`crossings_succ_le`), so a schedule that is started afresh somewhere in between does not
gain a boundary.
-/
import Mathlib

namespace Orbit

section Fuel

variable {τ : Type} [LinearOrder τ] {f : τ → τ}

/-- How many boundaries after `x` are not after `upTo`, counting `fuel` of them at most. -/
def crossed (f : τ → τ) (upTo : τ) : (fuel : Nat) → τ → Nat
  | 0, _ => 0
  | fuel + 1, x => if f x ≤ upTo then crossed f upTo fuel (f x) + 1 else 0

theorem crossed_mono {upTo upTo' : τ} (hle : upTo ≤ upTo') : ∀ {fuel fuel' : Nat} {x : τ},
    fuel ≤ fuel' → crossed f upTo fuel x ≤ crossed f upTo' fuel' x := by
  intro fuel
  induction fuel with
  | zero => exact fun _ => Nat.zero_le _
  | succ fuel ih =>
    intro fuel' x hfuel
    obtain ⟨rest, rfl⟩ := Nat.exists_eq_add_of_lt hfuel
    rw [crossed, crossed]
    by_cases hnext : f x ≤ upTo
    · rw [if_pos hnext, if_pos (hnext.trans hle), Nat.add_le_add_iff_right]
      exact ih (by omega)
    · rw [if_neg hnext]
      exact Nat.zero_le _

end Fuel

variable {f : Int → Int}

/-- How many boundaries after `start` are not after `upTo`. -/
def crossings (f : Int → Int) (start upTo : Int) : Nat := crossed f upTo (upTo - start).toNat start

variable {start x y : Int}

theorem crossings_mono (hxy : x ≤ y) : crossings f start x ≤ crossings f start y :=
  crossed_mono hxy (by omega)

/-- Before the first boundary none is crossed. -/
theorem crossings_eq_zero (h : x < f start) : crossings f start x = 0 := by
  unfold crossings
  cases (x - start).toNat with
  | zero => rfl
  | succ fuel => exact if_neg (not_le.mpr h)

theorem crossed_succ_le (hy : f x ≤ y) : ∀ {fuel fuel' : Nat} {start : Int},
    (∀ z, start ≤ z → z ≤ x → z < f z) → (∀ z, start ≤ z → z ≤ x → f z ≤ f x) → start ≤ x →
    y ≤ start + fuel' → crossed f x fuel start + 1 ≤ crossed f y fuel' start := by
  intro fuel
  induction fuel with
  | zero =>
    intro fuel' start hahead hordered hx hfuel
    have hlt := hahead x hx le_rfl
    obtain ⟨fuel', rfl⟩ : ∃ rest, fuel' = rest + 1 := Nat.exists_eq_succ_of_ne_zero (by omega)
    rw [crossed, crossed, if_pos ((hordered start le_rfl hx).trans hy)]
    omega
  | succ fuel ih =>
    intro fuel' start hahead hordered hx hfuel
    have hlt := hahead x hx le_rfl
    obtain ⟨fuel', rfl⟩ : ∃ rest, fuel' = rest + 1 := Nat.exists_eq_succ_of_ne_zero (by omega)
    rw [crossed, crossed, if_pos ((hordered start le_rfl hx).trans hy), Nat.add_le_add_iff_right]
    by_cases hnext : f start ≤ x
    · rw [if_pos hnext]
      have hstart := hahead start le_rfl hx
      exact ih (fun z hz => hahead z (hstart.le.trans hz))
        (fun z hz => hordered z (hstart.le.trans hz)) hnext (by push_cast at hfuel; omega)
    · rw [if_neg hnext]
      exact Nat.zero_le _

/-- **From a moment to its next boundary one more is crossed.** -/
theorem crossings_succ_le (hahead : ∀ z, start ≤ z → z ≤ x → z < f z)
    (hordered : ∀ z, start ≤ z → z ≤ x → f z ≤ f x) (hx : start ≤ x) (hy : f x ≤ y) :
    crossings f start x + 1 ≤ crossings f start y := by
  have hlt := hahead x hx le_rfl
  exact crossed_succ_le hy hahead hordered hx (by omega)

end Orbit
