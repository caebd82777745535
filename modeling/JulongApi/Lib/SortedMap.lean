/-
Finite maps whose entries stand in the order of their keys: the objects that a JSON text holds.

Two such maps are equal if they have the same values under all keys (`ext_get`), so that what
depends on the text of a map depends on its values alone.
-/
import Mathlib

namespace JulongApi

structure SortedMap (κ ν : Type) [LinearOrder κ] where
  entries : List (κ × ν)
  sorted : entries.Pairwise fun a b => a.1 < b.1

namespace SortedMap

variable {κ ν : Type} [LinearOrder κ] {m m' : SortedMap κ ν} {k k' : κ} {v : ν}

def empty : SortedMap κ ν := ⟨[], .nil⟩

def get (m : SortedMap κ ν) (k : κ) : Option ν :=
  (m.entries.find? fun entry => entry.1 = k).map (·.2)

def keys (m : SortedMap κ ν) : List κ := m.entries.map (·.1)

def isEmpty (m : SortedMap κ ν) : Bool := m.entries.isEmpty

def insertEntry (k : κ) (v : ν) : List (κ × ν) → List (κ × ν)
  | [] => [(k, v)]
  | entry :: rest =>
    if k < entry.1 then (k, v) :: entry :: rest
    else if k = entry.1 then (k, v) :: rest
    else entry :: insertEntry k v rest

/-! ### Membership -/

theorem mem_insertEntry {l : List (κ × ν)} (hsorted : l.Pairwise fun a b => a.1 < b.1)
    {entry : κ × ν} :
    entry ∈ insertEntry k v l ↔ entry = (k, v) ∨ entry ∈ l ∧ entry.1 ≠ k := by
  induction l with
  | nil => simp [insertEntry]
  | cons first rest ih =>
    obtain ⟨hfirst, hrest⟩ := List.pairwise_cons.mp hsorted
    unfold insertEntry
    by_cases hlt : k < first.1
    · rw [if_pos hlt, List.mem_cons]
      refine or_congr_right ⟨fun hmem => ⟨hmem, fun heq => ?_⟩, fun h => h.1⟩
      obtain rfl | hmem := List.mem_cons.mp hmem
      · exact absurd heq hlt.ne'
      · exact absurd heq (hlt.trans (hfirst entry hmem)).ne'
    · rw [if_neg hlt]
      by_cases heq : k = first.1
      · rw [if_pos heq, List.mem_cons, List.mem_cons]
        refine or_congr_right ⟨fun hmem => ⟨.inr hmem, ?_⟩, fun h => ?_⟩
        · rw [heq]
          exact (hfirst entry hmem).ne'
        · obtain rfl | hmem := h.1
          · exact absurd heq.symm h.2
          · exact hmem
      · rw [if_neg heq, List.mem_cons, List.mem_cons, ih hrest]
        constructor
        · rintro (rfl | rfl | ⟨hmem, hne⟩)
          · exact .inr ⟨.inl rfl, fun h => heq h.symm⟩
          · exact .inl rfl
          · exact .inr ⟨.inr hmem, hne⟩
        · rintro (rfl | ⟨rfl | hmem, hne⟩)
          · exact .inr (.inl rfl)
          · exact .inl rfl
          · exact .inr (.inr ⟨hmem, hne⟩)

theorem sorted_insertEntry {l : List (κ × ν)} (hsorted : l.Pairwise fun a b => a.1 < b.1) :
    (insertEntry k v l).Pairwise fun a b => a.1 < b.1 := by
  induction l with
  | nil => exact List.pairwise_singleton _ _
  | cons first rest ih =>
    obtain ⟨hfirst, hrest⟩ := List.pairwise_cons.mp hsorted
    unfold insertEntry
    by_cases hlt : k < first.1
    · rw [if_pos hlt]
      refine List.pairwise_cons.mpr ⟨fun entry hmem => ?_, hsorted⟩
      obtain rfl | hmem := List.mem_cons.mp hmem
      · exact hlt
      · exact hlt.trans (hfirst entry hmem)
    · rw [if_neg hlt]
      by_cases heq : k = first.1
      · rw [if_pos heq]
        refine List.pairwise_cons.mpr ⟨fun entry hmem => ?_, hrest⟩
        show k < entry.1
        rw [heq]
        exact hfirst entry hmem
      · rw [if_neg heq]
        refine List.pairwise_cons.mpr ⟨fun entry hmem => ?_, ih hrest⟩
        obtain rfl | ⟨hold, -⟩ := (mem_insertEntry hrest).mp hmem
        · exact lt_of_le_of_ne (not_lt.mp hlt) (Ne.symm heq)
        · exact hfirst entry hold

theorem mem_entries_iff : (k, v) ∈ m.entries ↔ m.get k = some v := by
  obtain ⟨l, hsorted⟩ := m
  unfold get
  dsimp only
  induction l with
  | nil => simp
  | cons first rest ih =>
    obtain ⟨hfirst, hrest⟩ := List.pairwise_cons.mp hsorted
    rw [List.mem_cons, List.find?_cons]
    by_cases heq : first.1 = k
    · have hlater : (k, v) ∉ rest := fun hmem => absurd heq (hfirst _ hmem).ne
      simp only [heq, decide_true, Option.map_some, Option.some.injEq, hlater, or_false]
      constructor
      · rintro rfl
        rfl
      · rintro rfl
        rw [← heq]
    · have hne : (k, v) ≠ first := fun h => heq (h ▸ rfl)
      simp only [heq, decide_false, hne, false_or]
      exact ih hrest

/-! ### Operations -/

def set (m : SortedMap κ ν) (k : κ) (v : ν) : SortedMap κ ν :=
  ⟨insertEntry k v m.entries, sorted_insertEntry m.sorted⟩

def filter (m : SortedMap κ ν) (p : κ → ν → Bool) : SortedMap κ ν :=
  ⟨m.entries.filter fun entry => p entry.1 entry.2, m.sorted.filter _⟩

def delete (m : SortedMap κ ν) (k : κ) : SortedMap κ ν := m.filter fun k' _ => k' ≠ k

def setAll (m : SortedMap κ ν) (entries : List (κ × ν)) : SortedMap κ ν :=
  entries.foldl (fun m entry => m.set entry.1 entry.2) m

@[simp] theorem get_empty : (empty : SortedMap κ ν).get k = none := rfl

@[simp] theorem get_set_self : (m.set k v).get k = some v :=
  mem_entries_iff.mp ((mem_insertEntry m.sorted).mpr (.inl rfl))

@[simp] theorem get_set_ne (h : k' ≠ k) : (m.set k v).get k' = m.get k' := by
  refine Option.ext fun w => ?_
  have hmem : (k', w) ∈ (m.set k v).entries ↔ (k', w) = (k, v) ∨ (k', w) ∈ m.entries ∧ k' ≠ k :=
    mem_insertEntry m.sorted
  rw [← mem_entries_iff, hmem, ← mem_entries_iff]
  simp [h]

theorem get_filter (p : κ → ν → Bool) : (m.filter p).get k = (m.get k).filter (p k) := by
  refine Option.ext fun w => ?_
  have hmem : (k, w) ∈ (m.filter p).entries ↔ (k, w) ∈ m.entries ∧ p k w = true := List.mem_filter
  rw [← mem_entries_iff, hmem, mem_entries_iff, Option.filter_eq_some_iff]

@[simp] theorem get_delete_self : (m.delete k).get k = none := by
  unfold delete
  rw [get_filter]
  cases m.get k <;> simp

@[simp] theorem get_delete_ne (h : k' ≠ k) : (m.delete k).get k' = m.get k' := by
  unfold delete
  rw [get_filter]
  cases m.get k' <;> simp [h]

theorem ext_get (h : ∀ k, m.get k = m'.get k) : m = m' := by
  have hmem : ∀ entry, entry ∈ m.entries ↔ entry ∈ m'.entries := by
    rintro ⟨k, v⟩
    rw [mem_entries_iff, mem_entries_iff, h k]
  have hnodup : ∀ m : SortedMap κ ν, m.entries.Nodup := fun m =>
    m.sorted.imp fun hlt heq => absurd (congrArg Prod.fst heq) hlt.ne
  have hperm := (List.perm_ext_iff_of_nodup (hnodup m) (hnodup m')).mpr hmem
  have hentries : m.entries = m'.entries :=
    hperm.eq_of_pairwise (fun a b _ _ hab hba => absurd hab hba.asymm) m.sorted m'.sorted
  obtain ⟨entries, sorted⟩ := m
  obtain ⟨entries', sorted'⟩ := m'
  obtain rfl : entries = entries' := hentries
  rfl

theorem get_setAll_of_not_mem : ∀ {entries : List (κ × ν)} {m : SortedMap κ ν},
    (∀ v, (k, v) ∉ entries) → (m.setAll entries).get k = m.get k := by
  intro entries
  induction entries with
  | nil => exact fun _ => rfl
  | cons first rest ih =>
    intro m hnot
    have hne : k ≠ first.1 := fun heq => hnot first.2 (heq ▸ List.mem_cons_self)
    have hrest := @ih (m.set first.1 first.2) fun v hmem => hnot v (List.mem_cons_of_mem _ hmem)
    rw [get_set_ne hne] at hrest
    exact hrest

theorem get_setAll_of_mem : ∀ {entries : List (κ × ν)} {m : SortedMap κ ν}, (k, v) ∈ entries →
    (∀ w, (k, w) ∈ entries → w = v) → (m.setAll entries).get k = some v := by
  intro entries
  induction entries with
  | nil => exact fun hmem => absurd hmem List.not_mem_nil
  | cons first rest ih =>
    intro m hmem honly
    by_cases hlater : (k, v) ∈ rest
    · exact @ih (m.set first.1 first.2) hlater fun w hw => honly w (List.mem_cons_of_mem _ hw)
    · obtain rfl : (k, v) = first := (List.mem_cons.mp hmem).resolve_right hlater
      have hnot : ∀ w, (k, w) ∉ rest := fun w hw =>
        hlater (honly w (List.mem_cons_of_mem _ hw) ▸ hw)
      exact (get_setAll_of_not_mem hnot).trans get_set_self

end SortedMap

end JulongApi
