/-
Lines of a stream that arrives in pieces.

`lines` cuts a whole stream at a separator; what follows the last separator is a line too,
unless it is empty.  A reader sees the stream piece by piece: it takes a line off its buffer
when there is a separator in it (`cutLine`), and the rest when nothing more comes.  The two
rules say that this reads the same lines, wherever the pieces end: `lines_of_cutLine` for a
line with its separator, `lines_of_not_cutLine` for the last one.
-/
import Mathlib.Data.List.Basic

namespace LineScan

variable {α : Type} [DecidableEq α] (nl : α)

/-- The first line of a buffer and what follows its separator. -/
def cutLine : List α → Option (List α × List α)
  | [] => none
  | a :: rest =>
    if a = nl then some ([], rest)
    else (cutLine rest).map fun cut => (a :: cut.1, cut.2)

/-- The lines of a stream, after the beginning of one, in reverse. -/
def linesAfter : List α → List α → List (List α)
  | begun, [] => if begun = [] then [] else [begun.reverse]
  | begun, a :: rest =>
    if a = nl then begun.reverse :: linesAfter [] rest else linesAfter (a :: begun) rest

def lines (stream : List α) : List (List α) := linesAfter nl [] stream

variable {nl}

@[simp] theorem lines_nil : lines nl ([] : List α) = [] := rfl

variable {buffer : List α}

theorem linesAfter_of_cutLine : ∀ {begun line rest : List α},
    cutLine nl buffer = some (line, rest) → ∀ more : List α,
      linesAfter nl begun (buffer ++ more) =
        (begun.reverse ++ line) :: linesAfter nl [] (rest ++ more) := by
  induction buffer with
  | nil =>
    intro begun line rest h
    cases h
  | cons a buffer ih =>
    intro begun line rest h more
    unfold cutLine at h
    rw [List.cons_append, linesAfter]
    by_cases ha : a = nl
    · rw [if_pos ha] at h
      cases h
      rw [if_pos ha, List.append_nil]
    · rw [if_neg ha] at h
      obtain ⟨⟨line', rest'⟩, hcut, hpair⟩ := Option.map_eq_some_iff.mp h
      cases hpair
      rw [if_neg ha, ih hcut, List.reverse_cons, List.append_assoc]
      rfl

/-- A line taken off the buffer is the first one, whatever is still to come. -/
theorem lines_of_cutLine {line rest : List α} (h : cutLine nl buffer = some (line, rest))
    (more : List α) : lines nl (buffer ++ more) = line :: lines nl (rest ++ more) :=
  linesAfter_of_cutLine h more

theorem linesAfter_of_not_cutLine : ∀ {begun : List α},
    cutLine nl buffer = none →
      linesAfter nl begun buffer =
        if begun.reverse ++ buffer = [] then [] else [begun.reverse ++ buffer] := by
  induction buffer with
  | nil =>
    intro begun _
    simp [linesAfter]
  | cons a buffer ih =>
    intro begun h
    unfold cutLine at h
    by_cases ha : a = nl
    · rw [if_pos ha] at h
      cases h
    · rw [if_neg ha] at h
      rw [linesAfter, if_neg ha, ih (Option.map_eq_none_iff.mp h), List.reverse_cons,
        List.append_assoc]
      rfl

theorem lines_of_not_cutLine (h : cutLine nl buffer = none) (hne : buffer ≠ []) :
    lines nl buffer = [buffer] := by
  unfold lines
  rw [linesAfter_of_not_cutLine h, List.reverse_nil, List.nil_append, if_neg hne]

theorem cutLine_length : ∀ {line rest : List α},
    cutLine nl buffer = some (line, rest) → rest.length < buffer.length := by
  induction buffer with
  | nil =>
    intro line rest h
    cases h
  | cons a buffer ih =>
    intro line rest h
    unfold cutLine at h
    split at h
    · cases h
      exact Nat.lt_succ_self _
    · obtain ⟨⟨line', rest'⟩, hcut, hpair⟩ := Option.map_eq_some_iff.mp h
      cases hpair
      exact Nat.lt_succ_of_lt (ih hcut)

end LineScan
