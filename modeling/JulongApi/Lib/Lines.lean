/-
Pieces written with a separator between two, and read again after the separator has been trimmed
from both ends of the text.

The pieces come back exactly when none of them holds the separator and neither the first nor the
last one is empty: an empty piece at an end leaves a separator there, which is trimmed.
-/
import Mathlib

namespace Lines

variable {α : Type}

/-! ### Writing -/

def write (sep : α) (pieces : List (List α)) : List α := [sep].intercalate pieces

theorem write_cons {sep : α} {piece next : List α} {rest : List (List α)} :
    write sep (piece :: next :: rest) = piece ++ sep :: write sep (next :: rest) := by
  simp [write, List.intercalate_cons_cons]

variable {pieces : List (List α)} {l : List α}

theorem length_write {sep : α} (hne : pieces ≠ []) :
    (write sep pieces).length + 1 = (pieces.map fun piece => piece.length + 1).sum := by
  induction pieces with
  | nil => exact absurd rfl hne
  | cons piece rest ih =>
    cases rest with
    | nil => simp [write]
    | cons next rest =>
      have h := ih (by simp)
      rw [write_cons, List.map_cons, List.sum_cons, ← h]
      simp
      omega

theorem head?_write {sep : α} (h : ∀ piece ∈ pieces, sep ∉ piece) (hne : write sep pieces ≠ []) :
    (write sep pieces).head? = some sep ↔ pieces.head? = some [] := by
  match pieces, h, hne with
  | [], _, hne => exact absurd rfl hne
  | [piece], h, hne =>
    have hpiece : sep ∉ piece := h piece (by simp)
    have hwrite : write sep [piece] = piece := List.intercalate_singleton
    rw [hwrite] at hne ⊢
    cases piece with
    | nil => exact absurd rfl hne
    | cons c rest =>
      have hc : c ≠ sep := by
        intro heq
        exact hpiece (by simp [heq])
      simp [hc]
  | piece :: next :: rest, h, _ =>
    have hpiece : sep ∉ piece := h piece (by simp)
    rw [write_cons]
    cases piece with
    | nil => simp
    | cons c others =>
      have hc : c ≠ sep := by
        intro heq
        exact hpiece (by simp [heq])
      simp [hc]

/-! ### Splitting -/

variable [DecidableEq α] (sep : α)

def trim (l : List α) : List α :=
  ((l.dropWhile (· == sep)).reverse.dropWhile (· == sep)).reverse

def read (l : List α) : List (List α) := (trim sep l).splitOn sep

variable {sep}

theorem not_mem_of_mem_splitOn : ∀ {piece : List α}, piece ∈ l.splitOn sep → sep ∉ piece := by
  induction l with
  | nil => intro piece h; simp_all
  | cons head rest ih =>
    intro piece h
    rw [List.splitOn_cons_eq_if_modifyHead] at h
    by_cases hsep : head == sep
    · rw [if_pos hsep] at h
      rcases List.mem_cons.mp h with rfl | h
      · exact List.not_mem_nil
      · exact ih h
    · rw [if_neg hsep] at h
      obtain ⟨first, others, heq⟩ := List.exists_cons_of_ne_nil (List.splitOn_ne_nil sep rest)
      rw [heq, List.modifyHead_cons] at h
      rcases List.mem_cons.mp h with rfl | h
      · have hfirst : sep ∉ first := ih (by simp [heq])
        have hhead : sep ≠ head := by
          intro heq'
          exact hsep (by simp [heq'])
        simp [hfirst, hhead]
      · exact ih (by simp [heq, h])

/-! ### Trimming -/

theorem dropWhile_eq_self_iff : l.dropWhile (· == sep) = l ↔ l.head? ≠ some sep := by
  cases l with
  | nil => simp
  | cons head rest =>
    by_cases h : head = sep
    · have hlt : (rest.dropWhile (· == sep)).length ≤ rest.length :=
        (List.dropWhile_sublist _).length_le
      have hne : (head :: rest).dropWhile (· == sep) ≠ head :: rest := by
        intro heq
        rw [List.dropWhile_cons_of_pos (by simpa using h)] at heq
        rw [heq, List.length_cons] at hlt
        omega
      simp [h] at hne ⊢
      exact hne
    · simp [h]

theorem trim_eq_self_iff : trim sep l = l ↔ l.head? ≠ some sep ∧ l.getLast? ≠ some sep := by
  constructor
  · intro h
    have hstart : l.dropWhile (· == sep) = l := by
      refine (List.dropWhile_sublist _).eq_of_length_le ?_
      have hend := (List.dropWhile_sublist (l := (l.dropWhile (· == sep)).reverse)
        (· == sep)).length_le
      have hlength := congrArg List.length h
      simp only [trim, List.length_reverse] at hend hlength
      omega
    have hend : l.reverse.dropWhile (· == sep) = l.reverse := by
      have h' := congrArg List.reverse h
      rwa [trim, hstart, List.reverse_reverse] at h'
    refine ⟨dropWhile_eq_self_iff.mp hstart, ?_⟩
    rw [← List.head?_reverse]
    exact dropWhile_eq_self_iff.mp hend
  · rintro ⟨hstart, hend⟩
    rw [← List.head?_reverse] at hend
    rw [trim, dropWhile_eq_self_iff.mpr hstart, dropWhile_eq_self_iff.mpr hend,
      List.reverse_reverse]

/-! ### Pieces of a text -/

theorem write_splitOn (l : List α) : write sep (l.splitOn sep) = l := List.intercalate_splitOn sep

theorem splitOn_write (h : ∀ piece ∈ pieces, sep ∉ piece) (hne : pieces ≠ []) :
    (write sep pieces).splitOn sep = pieces :=
  List.splitOn_intercalate sep h hne

theorem getLast?_write (h : ∀ piece ∈ pieces, sep ∉ piece) (hne : write sep pieces ≠ []) :
    (write sep pieces).getLast? = some sep ↔ pieces.getLast? = some [] := by
  induction pieces with
  | nil => exact absurd rfl hne
  | cons piece rest ih =>
    cases rest with
    | nil =>
      have hpiece : sep ∉ piece := h piece (by simp)
      have hwrite : write sep [piece] = piece := List.intercalate_singleton
      rw [hwrite] at hne ⊢
      constructor
      · intro hlast
        exact absurd (List.mem_of_getLast? hlast) hpiece
      · intro hlast
        exact absurd (by simpa using hlast) hne
    | cons next rest =>
      rw [write_cons, List.getLast?_append, List.getLast?_cons_cons]
      by_cases hrest : write sep (next :: rest) = []
      · -- one empty piece stands behind the separator
        have hlast : next :: rest = [[]] := by
          have hsplit : (write sep (next :: rest)).splitOn sep = next :: rest :=
            splitOn_write (fun p hp => h p (List.mem_cons_of_mem _ hp)) (by simp)
          rw [hrest] at hsplit
          simpa using hsplit.symm
        rw [hrest]
        simp [hlast]
      · have hstep := ih (fun p hp => h p (List.mem_cons_of_mem _ hp)) hrest
        rw [← hstep, List.getLast?_cons, Option.some_or]
        obtain ⟨last, hlast⟩ : ∃ last, (write sep (next :: rest)).getLast? = some last := by
          cases hget : (write sep (next :: rest)).getLast? with
          | none => exact absurd (List.getLast?_eq_none_iff.mp hget) hrest
          | some last => exact ⟨last, rfl⟩
        rw [hlast]
        rfl

/-! ### Reading what was written -/

/-- **The pieces that come back.** -/
theorem read_write_iff (hne : write sep pieces ≠ []) :
    read sep (write sep pieces) = pieces ↔
      (∀ piece ∈ pieces, sep ∉ piece) ∧ pieces.head? ≠ some [] ∧ pieces.getLast? ≠ some [] := by
  constructor
  · intro h
    have hpieces : ∀ piece ∈ pieces, sep ∉ piece := by
      intro piece hpiece
      rw [← h] at hpiece
      exact not_mem_of_mem_splitOn hpiece
    have htrim : trim sep (write sep pieces) = write sep pieces := by
      have hwrite : write sep ((trim sep (write sep pieces)).splitOn sep)
          = trim sep (write sep pieces) := write_splitOn _
      rw [← hwrite]
      exact congrArg (write sep) h
    obtain ⟨hstart, hend⟩ := trim_eq_self_iff.mp htrim
    exact ⟨hpieces, fun hhead => hstart ((head?_write hpieces hne).mpr hhead),
      fun hlast => hend ((getLast?_write hpieces hne).mpr hlast)⟩
  · rintro ⟨hpieces, hhead, hlast⟩
    have htrim : trim sep (write sep pieces) = write sep pieces :=
      trim_eq_self_iff.mpr ⟨fun h => hhead ((head?_write hpieces hne).mp h),
        fun h => hlast ((getLast?_write hpieces hne).mp h)⟩
    have hsome : pieces ≠ [] := by
      intro hnil
      exact hne (by rw [hnil]; rfl)
    rw [read, htrim, splitOn_write hpieces hsome]

end Lines
