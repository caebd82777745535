/-
Tables with a key.

A table is a list of rows no two of which share a key, and it carries the proof: a
primary key or a unique index cannot be violated by a value of the type.  Rows are
read by key, replaced under their key, or inserted, and an insert is refused when
the key is taken.

The lemmas say what each operation does to a lookup, to a property of all rows, and to a
sum over the rows.
-/
import Mathlib

/-- Rows told apart by `key`. -/
structure Table {κ ρ : Type} (key : ρ → κ) where
  rows : List ρ
  keys : (rows.map key).Nodup

namespace Table

variable {κ ρ : Type} [DecidableEq κ] {key : ρ → κ}

def find (t : Table key) (k : κ) : Option ρ := t.rows.find? fun row => decide (key row = k)

def save (t : Table key) (row : ρ) : Table key where
  rows := t.rows.map fun old => if key old = key row then row else old
  keys := by
    have hkeys : (key ∘ fun old => if key old = key row then row else old) = key := by
      funext old
      simp only [Function.comp_apply]
      split
      · next h => exact h.symm
      · rfl
    rw [List.map_map, hkeys]
    exact t.keys

/-- A guarded update of the row under a key, and whether it matched. -/
def update (t : Table key) (k : κ) (guard : ρ → Bool) (f : ρ → ρ) : Bool × Table key :=
  match t.find k with
  | none => (false, t)
  | some row => if guard row then (true, t.save (f row)) else (false, t)

def mapRows (t : Table key) (f : ρ → ρ) (hf : ∀ row, key (f row) = key row) : Table key where
  rows := t.rows.map f
  keys := by
    rw [List.map_map, show key ∘ f = key from funext hf]
    exact t.keys

/-- Add a row; `none` when its key is taken. -/
def insert (t : Table key) (row : ρ) : Option (Table key) :=
  if h : key row ∈ t.rows.map key then none
  else some ⟨row :: t.rows, List.nodup_cons.mpr ⟨h, t.keys⟩⟩

def insertAll (t : Table key) : List ρ → Option (Table key)
  | [] => some t
  | row :: rest => (t.insert row).bind fun t' => t'.insertAll rest

/-- Rewrite every row; `none` when that would give two rows one key. -/
def tryMap (t : Table key) (f : ρ → ρ) : Option (Table key) :=
  if h : ((t.rows.map f).map key).Nodup then some ⟨t.rows.map f, h⟩ else none

def put (t : Table key) (row : ρ) : Table key :=
  if h : key row ∈ t.rows.map key then t.save row
  else ⟨row :: t.rows, List.nodup_cons.mpr ⟨h, t.keys⟩⟩

def erase (t : Table key) (k : κ) : Table key where
  rows := t.rows.filter fun row => decide (key row ≠ k)
  keys := t.keys.sublist (List.filter_sublist.map key)

def delete (t : Table key) (p : ρ → Bool) : Table key where
  rows := t.rows.filter fun row => !p row
  keys := t.keys.sublist (List.filter_sublist.map key)

/-! ### Lookups -/

variable {t t' : Table key} {k : κ} {row old new : ρ} {f : ρ → ρ}

theorem key_of_find (h : t.find k = some row) : key row = k := by
  simpa using List.find?_some h

theorem mem_of_find (h : t.find k = some row) : row ∈ t.rows :=
  List.mem_of_find?_eq_some h

theorem find_of_mem (h : row ∈ t.rows) : t.find (key row) = some row := by
  obtain ⟨rows, keys⟩ := t
  simp only [find] at h ⊢
  induction rows with
  | nil => simp at h
  | cons head rest ih =>
    simp only [List.map_cons, List.nodup_cons] at keys
    rcases List.mem_cons.mp h with rfl | hrest
    · simp
    · have hne : key head ≠ key row := by
        intro heq
        exact keys.1 (heq ▸ List.mem_map_of_mem hrest)
      rw [List.find?_cons_of_neg (by simpa using hne)]
      exact ih keys.2 hrest

/-! ### Replacing a row -/

theorem find_save_ne (h : key row ≠ k) : (t.save row).find k = t.find k := by
  show (t.rows.map fun old => if key old = key row then row else old).find?
      (fun row => decide (key row = k)) = t.rows.find? fun row => decide (key row = k)
  induction t.rows with
  | nil => rfl
  | cons head rest ih =>
    rw [List.map_cons]
    by_cases hk : key head = k
    · have hne : key head ≠ key row := fun hc => h (hc.symm.trans hk)
      rw [if_neg hne, List.find?_cons_of_pos (by simpa using hk),
        List.find?_cons_of_pos (by simpa using hk)]
    · have hk' : key (if key head = key row then row else head) ≠ k := by
        split
        · exact h
        · exact hk
      rw [List.find?_cons_of_neg (by simpa using hk'),
        List.find?_cons_of_neg (by simpa using hk)]
      exact ih

theorem find_save_self (h : t.find (key row) = some old) :
    (t.save row).find (key row) = some row := by
  have hkey : key old = key row := key_of_find h
  have hmem : row ∈ (t.save row).rows :=
    List.mem_map.mpr ⟨old, mem_of_find h, by rw [if_pos hkey]⟩
  exact find_of_mem hmem

theorem exists_find_save (h : t.find k = some old) : ∃ new, (t.save row).find k = some new := by
  by_cases hk : key row = k
  · subst hk
    exact ⟨row, find_save_self h⟩
  · exact ⟨old, (find_save_ne hk).trans h⟩

theorem save_of_find (h : t.find (key row) = some row) : t.save row = t := by
  have hrows : (t.save row).rows = t.rows := by
    show (t.rows.map fun old => if key old = key row then row else old) = t.rows
    refine (List.map_congr_left ?_).trans (List.map_id t.rows)
    intro old hold
    by_cases hkey : key old = key row
    · have hsame : t.find (key old) = some old := find_of_mem hold
      rw [hkey, h] at hsame
      rw [if_pos hkey]
      exact Option.some.inj hsame
    · rw [if_neg hkey, id]
  obtain ⟨rows, keys⟩ := t
  simp only [save] at hrows ⊢
  congr

theorem save_of_find_none (h : t.find (key row) = none) : t.save row = t := by
  have hrows : (t.save row).rows = t.rows := by
    show (t.rows.map fun old => if key old = key row then row else old) = t.rows
    refine (List.map_congr_left ?_).trans (List.map_id t.rows)
    intro old hold
    by_cases hkey : key old = key row
    · have hsame : t.find (key old) = some old := find_of_mem hold
      rw [hkey, h] at hsame
      simp at hsame
    · rw [if_neg hkey, id]
  obtain ⟨rows, keys⟩ := t
  simp only [save] at hrows ⊢
  congr

theorem save_save {row' : ρ} (h : key row = key row') : (t.save row).save row' = t.save row' := by
  simp only [save, mk.injEq, List.map_map]
  refine List.map_congr_left ?_
  intro old _
  simp only [Function.comp_apply]
  by_cases hkey : key old = key row
  · rw [if_pos hkey, if_pos h, if_pos (hkey.trans h)]
  · rw [if_neg hkey]

theorem mem_save (h : new ∈ (t.save row).rows) : new = row ∨ new ∈ t.rows := by
  obtain ⟨old, hold, rfl⟩ := List.mem_map.mp h
  split
  · exact .inl rfl
  · exact .inr hold

theorem mem_save_of_ne (hold : old ∈ t.rows) (hne : key row ≠ key old) :
    old ∈ (t.save row).rows := by
  have hfind : (t.save row).find (key old) = some old :=
    (find_save_ne hne).trans (find_of_mem hold)
  exact mem_of_find hfind

theorem forall_save {P : ρ → Prop} (h : ∀ old ∈ t.rows, P old) (hrow : P row) :
    ∀ new ∈ (t.save row).rows, P new := by
  intro new hnew
  rcases mem_save hnew with rfl | hold
  · exact hrow
  · exact h new hold

/-! ### Guarded updates -/

theorem update_cases (t : Table key) (k : κ) (guard : ρ → Bool) (f : ρ → ρ) :
    (∃ row, t.find k = some row ∧ guard row = true ∧ t.update k guard f = (true, t.save (f row))) ∨
      ((∀ row, t.find k = some row → guard row = false) ∧ t.update k guard f = (false, t)) := by
  unfold update
  cases hfind : t.find k with
  | none => exact .inr ⟨by simp, rfl⟩
  | some row =>
    by_cases hguard : guard row = true
    · exact .inl ⟨row, rfl, hguard, by simp [hguard]⟩
    · refine .inr ⟨?_, by simp [hguard]⟩
      intro row' hrow'
      cases hrow'
      simpa using hguard

theorem mem_update {guard : ρ → Bool} (h : new ∈ (t.update k guard f).2.rows) :
    new ∈ t.rows ∨ ∃ old ∈ t.rows, guard old = true ∧ new = f old := by
  rcases t.update_cases k guard f with ⟨row, hfind, hguard, heq⟩ | ⟨-, heq⟩
  · rw [heq] at h
    rcases mem_save h with rfl | hold
    · exact .inr ⟨row, mem_of_find hfind, hguard, rfl⟩
    · exact .inl hold
  · rw [heq] at h
    exact .inl h

theorem find_update (t : Table key) (k k' : κ) (guard : ρ → Bool)
    (hf : ∀ row, key (f row) = key row) :
    (t.update k guard f).2.find k' =
      if k' = k then (t.find k').map fun row => if guard row then f row else row
      else t.find k' := by
  rcases t.update_cases k guard f with ⟨row, hfind, hguard, heq⟩ | ⟨hfalse, heq⟩
  · rw [heq]
    have hkey : key (f row) = k := (hf row).trans (key_of_find hfind)
    by_cases hk : k' = k
    · subst hk
      rw [if_pos rfl, hfind, Option.map_some, if_pos hguard]
      have hold : t.find (key (f row)) = some row := hkey.symm ▸ hfind
      exact hkey ▸ find_save_self hold
    · rw [if_neg hk]
      exact find_save_ne (hkey ▸ Ne.symm hk)
  · rw [heq]
    by_cases hk : k' = k
    · subst hk
      rw [if_pos rfl]
      cases hfind : t.find k' with
      | none => rfl
      | some row => simp [hfalse row hfind]
    · rw [if_neg hk]

theorem find_mapRows (t : Table key) (hf : ∀ row, key (f row) = key row) (k : κ) :
    (t.mapRows f hf).find k = (t.find k).map f := by
  show (t.rows.map f).find? (fun row => decide (key row = k)) = _
  rw [List.find?_map]
  congr 1
  unfold find
  congr 1
  funext row
  simp [hf]

/-! ### Inserting a row -/

theorem insert_eq_none (h : t.insert row = none) : ∃ old, t.find (key row) = some old := by
  unfold insert at h
  split at h
  · rename_i hmem
    obtain ⟨old, hold, heq⟩ := List.mem_map.mp hmem
    exact ⟨old, heq ▸ find_of_mem hold⟩
  · simp at h

theorem find_of_insert (h : t.insert row = some t') : t.find (key row) = none := by
  unfold insert at h
  split at h
  · simp at h
  · rename_i hfree
    cases hfind : t.find (key row) with
    | none => rfl
    | some old =>
      have hkey : key old = key row := key_of_find hfind
      exact absurd (hkey ▸ List.mem_map_of_mem (mem_of_find hfind)) hfree

theorem find_insert_self (h : t.insert row = some t') : t'.find (key row) = some row := by
  unfold insert at h
  split at h
  · simp at h
  · cases h
    exact find_of_mem (by simp)

theorem find_insert_ne (h : t.insert row = some t') (hk : key row ≠ k) : t'.find k = t.find k := by
  unfold insert at h
  split at h
  · simp at h
  · cases h
    unfold find
    rw [List.find?_cons_of_neg (by simpa using hk)]

theorem mem_insert (hinsert : t.insert row = some t') (h : new ∈ t'.rows) :
    new = row ∨ new ∈ t.rows := by
  unfold insert at hinsert
  split at hinsert
  · simp at hinsert
  · cases hinsert
    exact List.mem_cons.mp h

theorem rows_of_insert (h : t.insert row = some t') : t'.rows = row :: t.rows := by
  unfold insert at h
  split at h
  · simp at h
  · rw [← Option.some.inj h]

theorem rows_of_insertAll : ∀ {rows : List ρ} {t t' : Table key}, t.insertAll rows = some t' →
    t'.rows = rows.reverse ++ t.rows := by
  intro rows
  induction rows with
  | nil =>
    intro t t' h
    cases h
    rfl
  | cons row rest ih =>
    intro t t' h
    obtain ⟨mid, hmid, hrest⟩ := Option.bind_eq_some_iff.mp h
    rw [ih hrest, rows_of_insert hmid, List.reverse_cons, List.append_assoc,
      List.singleton_append]

theorem rows_of_tryMap (h : t.tryMap f = some t') : t'.rows = t.rows.map f := by
  unfold tryMap at h
  split at h
  · rw [← Option.some.inj h]
  · simp at h

/-! ### Writing and dropping a key -/

theorem find_put_self (t : Table key) (row : ρ) : (t.put row).find (key row) = some row := by
  unfold put
  split
  · rename_i hmem
    obtain ⟨old, hold, heq⟩ := List.mem_map.mp hmem
    have hfind : t.find (key row) = some old := heq ▸ find_of_mem hold
    exact find_save_self hfind
  · exact find_of_mem (by simp)

theorem find_put_ne (h : key row ≠ k) : (t.put row).find k = t.find k := by
  unfold put
  split
  · exact find_save_ne h
  · unfold find
    rw [List.find?_cons_of_neg (by simpa using h)]

theorem mem_put (h : new ∈ (t.put row).rows) : new = row ∨ new ∈ t.rows ∧ key row ≠ key new := by
  have hfind : (t.put row).find (key new) = some new := find_of_mem h
  by_cases hk : key row = key new
  · rw [← hk, find_put_self] at hfind
    exact .inl (Option.some.inj hfind).symm
  · rw [find_put_ne hk] at hfind
    exact .inr ⟨mem_of_find hfind, hk⟩

theorem rows_put_of_find_none (h : t.find (key row) = none) : (t.put row).rows = row :: t.rows := by
  have hfree : key row ∉ t.rows.map key := by
    intro hmem
    obtain ⟨old, hold, heq⟩ := List.mem_map.mp hmem
    rw [← heq, find_of_mem hold] at h
    simp at h
  unfold put
  rw [dif_neg hfree]

theorem forall_put {P : ρ → Prop} (h : ∀ old ∈ t.rows, P old) (hrow : P row) :
    ∀ new ∈ (t.put row).rows, P new := by
  unfold put
  split
  · exact forall_save h hrow
  · exact List.forall_mem_cons.mpr ⟨hrow, h⟩

@[simp] theorem find_erase_self (t : Table key) (k : κ) : (t.erase k).find k = none := by
  unfold find erase
  rw [List.find?_eq_none]
  intro row hrow
  simpa using (List.mem_filter.mp hrow).2

theorem find_erase_ne {k' : κ} (h : k ≠ k') : (t.erase k).find k' = t.find k' := by
  show (t.rows.filter fun row => decide (key row ≠ k)).find? (fun row => decide (key row = k')) = _
  rw [List.find?_filter]
  unfold find
  congr 1
  funext row
  by_cases hk : key row = k'
  · simp [hk, Ne.symm h]
  · simp [hk]

theorem erase_put_of_find_none (h : t.find (key row) = none) : (t.put row).erase (key row) = t := by
  have hrows : ((t.put row).erase (key row)).rows = t.rows := by
    show (t.put row).rows.filter (fun old => decide (key old ≠ key row)) = t.rows
    rw [rows_put_of_find_none h, List.filter_cons_of_neg (by simp), List.filter_eq_self]
    intro old hold
    refine decide_eq_true fun heq => ?_
    rw [← heq, find_of_mem hold] at h
    cases h
  generalize (t.put row).erase (key row) = t' at hrows
  cases t
  cases t'
  congr

theorem mem_put_of_find_none (h : t.find (key row) = none) :
    new ∈ (t.put row).rows ↔ new = row ∨ new ∈ t.rows := by
  rw [rows_put_of_find_none h]
  exact List.mem_cons

theorem find_foldl_put : ∀ {rows : List ρ} {t : Table key} (k : κ), (rows.map key).Nodup →
    (rows.foldl put t).find k =
      (rows.find? fun row => decide (key row = k)).or (t.find k) := by
  intro rows
  induction rows with
  | nil => exact fun _ _ => rfl
  | cons row rest ih =>
    intro t k hkeys
    rw [List.map_cons, List.nodup_cons] at hkeys
    rw [List.foldl_cons, ih k hkeys.2]
    by_cases hk : key row = k
    · have hlater : rest.find? (fun row => decide (key row = k)) = none := by
        rw [List.find?_eq_none]
        intro other hother heq
        exact hkeys.1 (hk.trans (of_decide_eq_true heq).symm ▸ List.mem_map_of_mem hother)
      rw [hlater, List.find?_cons_of_pos (by simpa using hk), Option.none_or, Option.some_or, ← hk]
      exact find_put_self t row
    · rw [List.find?_cons_of_neg (by simpa using hk), find_put_ne hk]

theorem find_eq_of_perm (h : t.rows.Perm t'.rows) (k : κ) : t.find k = t'.find k := by
  refine Option.ext fun row => ⟨fun hfind => ?_, fun hfind => ?_⟩
  · obtain rfl := key_of_find hfind
    exact find_of_mem (h.mem_iff.mp (mem_of_find hfind))
  · obtain rfl := key_of_find hfind
    exact find_of_mem (h.mem_iff.mpr (mem_of_find hfind))

theorem perm_of_find_eq (h : ∀ k, t.find k = t'.find k) : t.rows.Perm t'.rows := by
  refine (List.perm_ext_iff_of_nodup (.of_map key t.keys) (.of_map key t'.keys)).mpr fun row => ?_
  constructor
  · intro hrow
    have hfind := find_of_mem hrow
    rw [h] at hfind
    exact mem_of_find hfind
  · intro hrow
    have hfind := find_of_mem hrow
    rw [← h] at hfind
    exact mem_of_find hfind

theorem mem_erase : row ∈ (t.erase k).rows ↔ row ∈ t.rows ∧ key row ≠ k := by
  simp [erase]

omit [DecidableEq κ] in
theorem mem_delete {p : ρ → Bool} : row ∈ (t.delete p).rows ↔ row ∈ t.rows ∧ p row = false := by
  simp [delete]

/-! ### Sums over the rows -/

section Sum

variable {G : Type} [AddCommGroup G] (w : ρ → G)

theorem sum_save (h : t.find (key row) = some old) :
    ((t.save row).rows.map w).sum = (t.rows.map w).sum - w old + w row := by
  obtain ⟨rows, keys⟩ := t
  simp only [find] at h
  simp only [save]
  induction rows with
  | nil => simp at h
  | cons head rest ih =>
    simp only [List.map_cons, List.nodup_cons] at keys
    by_cases hkey : key head = key row
    · rw [List.find?_cons_of_pos (by simpa using hkey)] at h
      cases h
      -- the key occurs once, so the other rows stay
      have hrest : (rest.map fun old => if key old = key row then row else old) = rest := by
        refine (List.map_congr_left ?_).trans (List.map_id rest)
        intro old hold
        have hne : key old ≠ key row := by
          intro heq
          exact keys.1 (hkey.trans heq.symm ▸ List.mem_map_of_mem hold)
        rw [if_neg hne, id]
      rw [List.map_cons, if_pos hkey, hrest]
      simp only [List.map_cons, List.sum_cons]
      abel
    · rw [List.find?_cons_of_neg (by simpa using hkey)] at h
      have htail := ih keys.2 h
      rw [List.map_cons, if_neg hkey]
      simp only [List.map_cons, List.sum_cons, htail]
      abel

theorem sum_update {guard : ρ → Bool} (hf : ∀ row, key (f row) = key row)
    (hw : ∀ row, t.find k = some row → guard row = true → w (f row) = w row) :
    ((t.update k guard f).2.rows.map w).sum = (t.rows.map w).sum := by
  rcases t.update_cases k guard f with ⟨row, hfind, hguard, heq⟩ | ⟨-, heq⟩
  · have hold : t.find (key (f row)) = some row := by
      rw [hf, key_of_find hfind]
      exact hfind
    rw [heq]
    show ((t.save (f row)).rows.map w).sum = _
    rw [sum_save w hold, hw row hfind hguard]
    abel
  · rw [heq]

theorem sum_insert (h : t.insert row = some t') :
    (t'.rows.map w).sum = w row + (t.rows.map w).sum := by
  unfold insert at h
  split at h
  · simp at h
  · cases h
    rw [List.map_cons, List.sum_cons]

end Sum

end Table
