/-
Integers of 64 bits: after an operation one holds the exact result where that fits, and otherwise
what is left of it.
-/
import Mathlib

/-- The value an integer of 64 bits holds after an operation whose exact result is `x`. -/
def wrapInt64 (x : Int) : Int := (x + 2 ^ 63) % 2 ^ 64 - 2 ^ 63

def FitsInt64 (x : Int) : Prop := -2 ^ 63 ≤ x ∧ x < 2 ^ 63

theorem wrapInt64_eq {x : Int} (h : FitsInt64 x) : wrapInt64 x = x := by
  obtain ⟨hlow, hhigh⟩ := h
  unfold wrapInt64
  rw [Int.emod_eq_of_lt (by omega) (by omega)]
  omega
