/-
Parties that take turns: a list of them, of which one changes at a time.
-/
import Mathlib.Data.List.Basic

namespace Parties

variable {α : Type} {parties : List α} {i : Nat} {old new : α} {P : α → Prop}

theorem countP_set (p : α → Bool) (new : α) (h : parties[i]? = some old) :
    (parties.set i new).countP p + (p old).toNat = parties.countP p + (p new).toNat := by
  obtain ⟨hlt, rfl⟩ := List.getElem?_eq_some_iff.mp h
  have hle : (if p parties[i] = true then 1 else 0) ≤ parties.countP p :=
    List.boole_getElem_le_countP hlt
  have htoNat : ∀ b : Bool, b.toNat = if b = true then 1 else 0 := fun b => by cases b <;> rfl
  rw [List.countP_set hlt, htoNat, htoNat]
  omega

theorem mem_set (h : parties[i]? = some old) : new ∈ parties.set i new := by
  obtain ⟨hlt, -⟩ := List.getElem?_eq_some_iff.mp h
  exact List.mem_set hlt new

theorem forall_set (h : ∀ party ∈ parties, P party) (hnew : P new) :
    ∀ party ∈ parties.set i new, P party := by
  intro party hmem
  obtain hmem | rfl := List.mem_or_eq_of_mem_set hmem
  · exact h party hmem
  · exact hnew

theorem forall_of_set (h : parties[i]? = some old) (hold : P old)
    (hset : ∀ party ∈ parties.set i new, P party) : ∀ party ∈ parties, P party := by
  intro party hmem
  obtain ⟨j, hj⟩ := List.mem_iff_getElem?.mp hmem
  by_cases hij : i = j
  · subst hij
    rw [← Option.some.inj (h.symm.trans hj)]
    exact hold
  · refine hset party (List.mem_iff_getElem?.mpr ⟨j, ?_⟩)
    rw [List.getElem?_set_ne hij]
    exact hj

end Parties
