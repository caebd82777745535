/-
What the scanner of a stream makes of its lines.

It is the list of the payloads before the first marker, but for one kind of line: a marker
without the `data:` prefix passes the test for it and then loses its first five bytes, so that
what is left, a bracket, is a payload like another (`scanned_of_marker`).  So what is sent is right
if and only if no line is such a marker, up to the first one with its prefix
(`delivered_eq_iff`).
-/
import JulongApi.StreamScanner

namespace JulongApi.StreamScanner

/-! ### Trimming keeps a bracket -/

theorem stripSpace_front (data : Bytes) :
    stripSpace space2 space3 (0x5D :: data) = 0x5D :: data := by
  have htwo : ∀ b, space2 0x5D b = false := by
    intro b
    simp [space2]
  have hthree : ∀ b c, space3 0x5D b c = false := by
    intro b c
    simp [space3]
  have hone : space1 0x5D = false := by decide
  match data with
  | [] => simp [stripSpace, hone]
  | [b] => simp [stripSpace, hone, htwo]
  | b :: c :: rest => simp [stripSpace, hone, htwo, hthree]

theorem stripSpace_back : ∀ data : Bytes, ∃ kept,
    stripSpace (fun a b => space2 b a) (fun a b c => space3 c b a) (data ++ [0x5D]) =
      kept ++ [0x5D] := by
  have htwo : ∀ b, space2 0x5D b = false := by
    intro b
    simp [space2]
  have hthree : ∀ b c, space3 0x5D b c = false := by
    intro b c
    simp [space3]
  have hone : space1 0x5D = false := by decide
  have hlast : stripSpace (fun a b => space2 b a) (fun a b c => space3 c b a) [0x5D] =
      [] ++ [0x5D] := by
    simp [stripSpace, hone]
  have hpair : ∀ a, ∃ kept,
      stripSpace (fun a b => space2 b a) (fun a b c => space3 c b a) [a, 0x5D] =
        kept ++ [0x5D] := by
    intro a
    by_cases ha : space1 a = true
    · refine ⟨[], ?_⟩
      rw [stripSpace, if_pos ha, hlast]
    · refine ⟨[a], ?_⟩
      rw [stripSpace, if_neg ha, if_neg (by simp [htwo])]
      rfl
  intro data
  induction hn : data.length using Nat.strongRecOn generalizing data with
  | _ n ih =>
    subst hn
    match data with
    | [] => exact ⟨[], hlast⟩
    | [a] => exact hpair a
    | [a, b] =>
      change ∃ kept, stripSpace _ _ (a :: b :: 0x5D :: []) = _
      rw [stripSpace]
      split
      · exact hpair b
      · split
        · exact ⟨[], hlast⟩
        · rw [if_neg (by simp [hthree])]
          exact ⟨[a, b], rfl⟩
    | a :: b :: c :: rest =>
      change ∃ kept, stripSpace _ _ (a :: b :: c :: (rest ++ [0x5D])) = _
      rw [stripSpace]
      split
      · exact ih _ (by simp) (b :: c :: rest) rfl
      · split
        · exact ih _ (by simp) (c :: rest) rfl
        · split
          · exact ih _ (by simp; omega) rest rfl
          · exact ⟨a :: b :: c :: rest, rfl⟩

theorem trimSpace_bracket (data : Bytes) :
    ∃ rest, trimSpace (0x5D :: data) = 0x5D :: rest := by
  obtain ⟨kept, hkept⟩ := stripSpace_back data.reverse
  refine ⟨kept.reverse, ?_⟩
  unfold trimSpace
  rw [stripSpace_front, List.reverse_cons, hkept, List.reverse_append]
  rfl

/-! ### Lines -/

variable {start line : Bytes}

theorem take_of_isPrefixOf (h : start.isPrefixOf line = true) : line.take start.length = start :=
  (List.prefix_iff_eq_take.mp (List.isPrefixOf_iff_prefix.mp h)).symm

theorem isPrefixOf_of_take (h : line.take start.length = start) : start.isPrefixOf line = true :=
  List.isPrefixOf_iff_prefix.mpr (List.prefix_iff_eq_take.mpr h.symm)

theorem scanned_of_marker (h : doneMarker.isPrefixOf line = true) :
    ∃ data, scanned line = .payload data := by
  obtain ⟨rest, rfl⟩ := List.isPrefixOf_iff_prefix.mp h
  obtain ⟨trimmed, htrimmed⟩ := trimSpace_bracket rest
  refine ⟨0x5D :: trimmed, ?_⟩
  unfold scanned
  have hlength : ¬(doneMarker ++ rest).length < 6 := by
    simp [doneMarker]
  have hdrop : (doneMarker ++ rest).drop 5 = 0x5D :: rest := rfl
  have htake : (doneMarker ++ rest).take 6 = doneMarker := rfl
  rw [if_neg hlength, if_neg (fun hskip => hskip.2 htake), hdrop, htrimmed]
  dsimp only
  rw [if_neg (by simp), if_neg (by simp [doneMarker, List.isPrefixOf])]

theorem scanned_of_data (h : dataPrefix.isPrefixOf line = true) :
    scanned line =
      if trimSpace (line.drop 5) = [] then .skipped
      else if doneMarker.isPrefixOf (trimSpace (line.drop 5)) then .done
      else .payload (trimSpace (line.drop 5)) := by
  have htake : line.take 5 = dataPrefix := take_of_isPrefixOf h
  unfold scanned
  by_cases hlength : line.length < 6
  · have hdrop : line.drop 5 = [] := List.drop_eq_nil_of_le (by omega)
    rw [if_pos hlength, hdrop]
    rfl
  · rw [if_neg hlength, if_neg (fun hskip => hskip.1 htake)]

theorem scanned_of_other (hmarker : doneMarker.isPrefixOf line = false)
    (hdata : dataPrefix.isPrefixOf line = false) : scanned line = .skipped := by
  unfold scanned
  by_cases hlength : line.length < 6
  · rw [if_pos hlength]
  · rw [if_neg hlength, if_pos]
    constructor
    · intro htake
      rw [@isPrefixOf_of_take dataPrefix _ htake] at hdata
      cases hdata
    · intro htake
      rw [@isPrefixOf_of_take doneMarker _ htake] at hmarker
      cases hmarker

theorem scanned_spec (hmarker : doneMarker.isPrefixOf line = false) :
    (scanned line = .done ↔ isDone line = true) ∧
      (isDone line = false → ∀ data, scanned line = .payload data ↔ payload line = some data) := by
  unfold isDone payload
  rw [hmarker, Bool.false_or]
  cases hdata : dataPrefix.isPrefixOf line with
  | false =>
    rw [scanned_of_other hmarker hdata]
    simp
  | true =>
    rw [scanned_of_data hdata, Bool.true_and]
    by_cases hempty : trimSpace (line.drop 5) = []
    · rw [hempty]
      simp [doneMarker]
    · by_cases hdone : doneMarker.isPrefixOf (trimSpace (line.drop 5)) = true
      · simp [hempty, hdone]
      · simp [hempty, hdone]

/-- What a line gives the handler, before the marker. -/
def Scanned.data : Scanned → Option Bytes
  | .payload data => some data
  | _ => none

def delivered (lines : List Bytes) : List Bytes :=
  (lines.takeWhile fun line => scanned line ≠ .done).filterMap fun line => (scanned line).data

theorem delivered_cons (line : Bytes) (lines : List Bytes) :
    delivered (line :: lines) =
      match scanned line with
      | .done => []
      | .skipped => delivered lines
      | .payload data => data :: delivered lines := by
  unfold delivered
  rw [List.takeWhile_cons]
  cases hscanned : scanned line with
  | done => simp
  | skipped => simp [hscanned, Scanned.data]
  | payload data => simp [hscanned, Scanned.data]

theorem payloadsBeforeDone_cons (line : Bytes) (lines : List Bytes) :
    payloadsBeforeDone (line :: lines) =
      if isDone line then [] else (payload line).toList ++ payloadsBeforeDone lines := by
  unfold payloadsBeforeDone
  rw [List.takeWhile_cons]
  cases hdone : isDone line with
  | true => simp
  | false =>
    cases hpayload : payload line with
    | none => simp [hpayload]
    | some data => simp [hpayload]

theorem noBareMarker_cons (line : Bytes) (lines : List Bytes) :
    noBareMarker (line :: lines) ↔
      scanned line = .done ∨
        (doneMarker.isPrefixOf line = false ∧ noBareMarker lines) := by
  unfold noBareMarker
  rw [List.takeWhile_cons]
  by_cases hdone : scanned line = .done
  · simp [hdone]
  · rw [if_pos (by simpa using hdone), List.forall_mem_cons, or_iff_right hdone,
      Bool.not_eq_true]

theorem delivered_cases (lines : List Bytes) :
    (noBareMarker lines ∧ delivered lines = payloadsBeforeDone lines) ∨
      (¬noBareMarker lines ∧ (payloadsBeforeDone lines).length < (delivered lines).length) := by
  induction lines with
  | nil => exact .inl ⟨by simp [noBareMarker], rfl⟩
  | cons line lines ih =>
    rw [noBareMarker_cons, delivered_cons, payloadsBeforeDone_cons]
    cases hmarker : doneMarker.isPrefixOf line with
    | true =>
      obtain ⟨data, hdata⟩ := scanned_of_marker hmarker
      have hdone : isDone line = true := by
        unfold isDone
        rw [hmarker, Bool.true_or]
      right
      rw [hdata, hdone]
      simp
    | false =>
      obtain ⟨hdone, hpayload⟩ := scanned_spec hmarker
      by_cases hend : scanned line = .done
      · left
        rw [hend, hdone.mp hend]
        simp
      · have hgoes : isDone line = false := by
          rw [← Bool.not_eq_true, ← hdone]
          exact hend
        rw [hgoes]
        cases hscanned : scanned line with
        | done => exact absurd hscanned hend
        | skipped =>
          have hnone : payload line = none := by
            cases hsome : payload line with
            | none => rfl
            | some data =>
              rw [← hpayload hgoes data, hscanned] at hsome
              cases hsome
          simpa [hnone] using ih
        | payload data =>
          rw [(hpayload hgoes data).mp hscanned]
          simpa using ih

/-- Whatever the replacements make of payloads, the scanner sends the right ones if and only if
no marker comes without its prefix. -/
theorem delivered_eq_iff (cfg : Config) (lines : List Bytes) :
    (delivered lines).map cfg.transformed = (payloadsBeforeDone lines).map cfg.transformed ↔
      noBareMarker lines := by
  obtain ⟨hnone, heq⟩ | ⟨hsome, hlt⟩ := delivered_cases lines
  · rw [heq]
    exact iff_of_true rfl hnone
  · refine iff_of_false (fun h => ?_) hsome
    have hlength := congrArg List.length h
    rw [List.length_map, List.length_map] at hlength
    omega

end JulongApi.StreamScanner
