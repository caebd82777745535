/-
What `processNegativeIndex` makes of the negative indices of a path.

The array of an index is looked up before the first occurrence of its number in the path as it was
given, and what is replaced is the first occurrence in the path as it has become.  So a number is
resolved as it should be where it is the only one to be replaced and stands at its first occurrence.
-/
import JulongApi.Proofs.OverridePaths
import JulongApi.Proofs.Strings

namespace JulongApi.Override

open JsonTree

variable {F : Type} {lib : PathLibrary F}

/-! ### What the path should become -/

/-- The number at the beginning of a segment, as the expression finds it behind a dot. -/
def leadingNumber (segment : String) : Option String := negativeMatch ('.' :: segment.toList)

/-- The item of an array that a negative index stands for. -/
def indexIn (negIndex : String) : Option (Json F) → Option Int
  | some (.array items) =>
    let actualIndex := (items.length : Int) + atoiOrNearest negIndex
    if 0 ≤ actualIndex ∧ actualIndex < items.length then some actualIndex else none
  | _ => none

def resolveSegment (data : Json F) (pre : List String) (segment : String) : String :=
  if leadingNumber segment = some segment then
    ((indexIn segment (getAt pre data)).map toString).getD segment
  else segment

/-- Each negative index is resolved at the array that the resolved segments before it lead to. -/
def resolveSegments (data : Json F) : List String → List String → List String
  | _, [] => []
  | pre, segment :: rest =>
    resolveSegment data pre segment ::
      resolveSegments data (pre ++ [resolveSegment data pre segment]) rest

/-! ### What the code looks up and replaces -/

/-- The path the code reads for a number: what stands before its first occurrence. -/
def arrayPath (path negIndex : String) : String :=
  let before := ((cut path negIndex).map (·.1)).getD path
  (cutSuffix before ".").getD before

/-- The item that the code takes a number for. -/
def PathLibrary.lookedUp (lib : PathLibrary F) (data : Json F) (path negIndex : String) :
    Option Int :=
  indexIn negIndex (lib.get data (arrayPath path negIndex))

theorem processMatch_eq (data : Json F) (path result negIndex : String) :
    lib.processMatch data path result negIndex
      = match lib.lookedUp data path negIndex with
        | some actualIndex => replaceFirst result ("." ++ negIndex) ("." ++ toString actualIndex)
        | none => result := by
  have harray : ((cutSuffix (((cut path negIndex).map (·.1)).getD path) ".").getD
      (((cut path negIndex).map (·.1)).getD path)) = arrayPath path negIndex := rfl
  simp only [PathLibrary.processMatch, PathLibrary.lookedUp]
  rw [harray]
  cases lib.get data (arrayPath path negIndex) with
  | none => rfl
  | some value =>
    cases value with
    | scalar value => rfl
    | object fields => rfl
    | array items =>
      simp only [indexIn]
      by_cases hrange : 0 ≤ (items.length : Int) + atoiOrNearest negIndex ∧
          (items.length : Int) + atoiOrNearest negIndex < items.length
      · rw [if_pos hrange, if_pos hrange]
      · rw [if_neg hrange, if_neg hrange]

/-! ### The numbers of a path -/

theorem negativeMatches_skip : ∀ {piece rest : List Char}, '.' ∉ piece →
    negativeMatches (piece ++ rest) = negativeMatches rest := by
  intro piece
  induction piece with
  | nil => intro rest _; rfl
  | cons c piece ih =>
    intro rest h
    have hc : c ≠ '.' := fun heq => h (by simp [heq])
    have hnone : negativeMatch (c :: (piece ++ rest)) = none := by
      unfold negativeMatch
      split
      · rename_i heq
        exact absurd (List.cons.inj heq).1 hc
      · rfl
    rw [List.cons_append, negativeMatches, hnone, ih fun hmem => h (List.mem_cons_of_mem c hmem)]
    rfl

theorem negativeMatch_segment {segment rest : List Char} (hrest : rest.head? = none ∨
    rest.head? = some '.') :
    negativeMatch ('.' :: (segment ++ rest)) = negativeMatch ('.' :: segment) := by
  have hdigits : ∀ piece : List Char,
      (piece ++ rest).takeWhile Char.isDigit = piece.takeWhile Char.isDigit := by
    intro piece
    induction piece with
    | nil =>
      cases rest with
      | nil => rfl
      | cons c rest =>
        obtain rfl : c = '.' := by simpa using hrest
        rfl
    | cons c piece ih =>
      rw [List.cons_append, List.takeWhile_cons, List.takeWhile_cons, ih]
  cases segment with
  | nil =>
    cases rest with
    | nil => rfl
    | cons c rest =>
      obtain rfl : c = '.' := by simpa using hrest
      rfl
  | cons c piece =>
    by_cases hc : c = '-'
    · subst hc
      simp only [List.cons_append, negativeMatch, hdigits]
    · have hnone : ∀ tail : List Char, negativeMatch ('.' :: c :: tail) = none := by
        intro tail
        unfold negativeMatch
        split
        · rename_i heq
          exact absurd (List.cons.inj (List.cons.inj heq).2).1 hc
        · rfl
      rw [List.cons_append, hnone, hnone]

theorem negativeMatches_join : ∀ {first : String} {rest : List String},
    (∀ segment ∈ first :: rest, '.' ∉ segment.toList) →
      negativeMatches (".".intercalate (first :: rest)).toList = rest.filterMap leadingNumber := by
  intro first rest
  induction rest generalizing first with
  | nil =>
    intro h
    rw [String.intercalate_singleton]
    have hskip := @negativeMatches_skip _ [] (h first (by simp))
    rw [List.append_nil] at hskip
    exact hskip
  | cons next rest ih =>
    intro h
    obtain ⟨hfirst, hrest⟩ := List.forall_mem_cons.mp h
    have hjoin : (".".intercalate (first :: next :: rest)).toList
        = first.toList ++ '.' :: (".".intercalate (next :: rest)).toList := by
      rw [String.intercalate_cons_cons]
      simp
    obtain ⟨tail, htail⟩ := join_cons "." rest
    have hhead : tail.toList.head? = none ∨ tail.toList.head? = some '.' := by
      cases rest with
      | nil =>
        have := htail ""
        rw [String.intercalate_singleton, String.empty_append] at this
        exact .inl (by rw [← this]; rfl)
      | cons other rest =>
        have := htail ""
        rw [String.intercalate_cons_cons, String.empty_append, String.empty_append] at this
        exact .inr (by rw [← this]; simp)
    have hmatch : negativeMatch ('.' :: (".".intercalate (next :: rest)).toList)
        = leadingNumber next := by
      rw [htail next, String.toList_append, negativeMatch_segment hhead]
      rfl
    rw [hjoin, negativeMatches_skip hfirst, negativeMatches, hmatch, ih hrest,
      List.filterMap_cons]
    cases leadingNumber next <;> rfl

theorem no_dot_of_plain {segment : String} (h : PlainComponent segment) : '.' ∉ segment.toList :=
  fun hmem => (isPlainChar_iff.mp (h.plain '.' hmem)).1 rfl

theorem processNegativeIndex_eq (data : Json F) {first : String} {rest : List String}
    (hplain : ∀ segment ∈ first :: rest, PlainComponent segment) :
    lib.processNegativeIndex data (".".intercalate (first :: rest))
      = (rest.filterMap leadingNumber).foldl
          (lib.processMatch data (".".intercalate (first :: rest)))
          (".".intercalate (first :: rest)) := by
  rw [PathLibrary.processNegativeIndex,
    negativeMatches_join fun segment hsegment => no_dot_of_plain (hplain segment hsegment)]

/-! ### What stands before a number is a plain path -/

theorem splitOn_prefix (sep : Char) : ∀ (piece rest : List Char), ∃ x xs y ys,
    piece.splitOn sep = x :: xs ∧ (piece ++ rest).splitOn sep = y :: ys ∧ x <+: y ∧
      ∀ part ∈ xs, ∃ whole ∈ ys, part <+: whole := by
  intro piece
  induction piece with
  | nil =>
    intro rest
    obtain ⟨y, ys, hys⟩ := List.exists_cons_of_ne_nil (List.splitOn_ne_nil sep rest)
    exact ⟨[], [], y, ys, by simp, by simpa using hys, List.nil_prefix, by simp⟩
  | cons c piece ih =>
    intro rest
    obtain ⟨x, xs, y, ys, hx, hy, hprefix, hparts⟩ := ih rest
    rw [List.cons_append, List.splitOn_cons_eq_if_modifyHead,
      List.splitOn_cons_eq_if_modifyHead, hx, hy]
    by_cases hc : c = sep
    · rw [if_pos (by simpa using hc), if_pos (by simpa using hc)]
      refine ⟨[], x :: xs, [], y :: ys, rfl, rfl, List.nil_prefix, ?_⟩
      intro part hpart
      rcases List.mem_cons.mp hpart with rfl | hpart
      · exact ⟨y, List.mem_cons_self, hprefix⟩
      · obtain ⟨whole, hwhole, hpartPrefix⟩ := hparts part hpart
        exact ⟨whole, List.mem_cons_of_mem y hwhole, hpartPrefix⟩
    · rw [if_neg (by simpa using hc), if_neg (by simpa using hc)]
      exact ⟨c :: x, xs, c :: y, ys, rfl, rfl, (List.prefix_cons_inj c).mpr hprefix, hparts⟩

theorem plainComponent_of_prefix {part whole : String} (h : part.toList <+: whole.toList)
    (hwhole : PlainComponent whole) : PlainComponent part := by
  refine ⟨fun c hc => hwhole.plain c (h.subset hc), ?_⟩
  intro hcolon
  obtain ⟨tail, htail⟩ := h
  refine hwhole.noColon ?_
  rw [← htail]
  cases hchars : part.toList with
  | nil => rw [hchars] at hcolon; cases hcolon
  | cons c rest =>
    rw [hchars] at hcolon
    exact hcolon

theorem plain_of_prefix {part path : String} (h : part.toList <+: path.toList)
    (hpath : ∀ segment ∈ split path '.', PlainComponent segment) :
    ∀ segment ∈ split part '.', PlainComponent segment := by
  obtain ⟨tail, htail⟩ := h
  obtain ⟨x, xs, y, ys, hx, hy, hprefix, hparts⟩ := splitOn_prefix '.' part.toList tail
  rw [htail] at hy
  have hsegments : ∀ piece ∈ y :: ys, PlainComponent (String.ofList piece) := by
    intro piece hpiece
    refine hpath _ ?_
    rw [split, hy]
    exact List.mem_map_of_mem hpiece
  intro segment hsegment
  rw [split, hx] at hsegment
  obtain ⟨piece, hpiece, rfl⟩ := List.mem_map.mp hsegment
  obtain ⟨whole, hwhole, hpiecePrefix⟩ : ∃ whole ∈ y :: ys, piece <+: whole := by
    rcases List.mem_cons.mp hpiece with rfl | hpiece
    · exact ⟨y, List.mem_cons_self, hprefix⟩
    · obtain ⟨whole, hwhole, hpiecePrefix⟩ := hparts piece hpiece
      exact ⟨whole, List.mem_cons_of_mem y hwhole, hpiecePrefix⟩
  refine plainComponent_of_prefix ?_ (hsegments whole hwhole)
  rw [String.toList_ofList, String.toList_ofList]
  exact hpiecePrefix

theorem prefix_arrayPath {negIndex : String} (hempty : negIndex ≠ "") (path : String) :
    (arrayPath path negIndex).toList <+: path.toList := by
  have hbefore : (((cut path negIndex).map (·.1)).getD path).toList <+: path.toList := by
    cases hcut : cut path negIndex with
    | none => exact List.prefix_rfl
    | some parts =>
      obtain ⟨before, after⟩ := parts
      refine ⟨negIndex.toList ++ after.toList, ?_⟩
      rw [((cut_eq_some_iff hempty).mp hcut).1, List.append_assoc]
      rfl
  unfold arrayPath
  dsimp only
  generalize ((cut path negIndex).map (·.1)).getD path = before at hbefore
  cases hsuffix : cutSuffix before "." with
  | none => exact hbefore
  | some front =>
    have hfront := cutSuffix_eq_some.mp hsuffix
    rw [hfront, String.toList_append] at hbefore
    exact (List.prefix_append _ _).trans hbefore

/-! ### Where every number finds its item -/

/-- The item at the array that the text before a number's first occurrence names. -/
def itemBefore (data : Json F) (path negIndex : String) : Option Int :=
  indexIn negIndex (getAt (split (arrayPath path negIndex) '.') data)

theorem lookedUp_eq (hlib : lib.Documented anyName) {data : Json F}
    {path negIndex : String} (hpath : ∀ segment ∈ split path '.', PlainComponent segment)
    (hempty : negIndex ≠ "") : lib.lookedUp data path negIndex = itemBefore data path negIndex := by
  unfold PathLibrary.lookedUp itemBefore
  by_cases hnone : arrayPath path negIndex = ""
  · have hsplit : split "" '.' = [""] := by decide
    rw [hnone, hlib.getEmpty, hsplit]
  · have hjoin := join_split (arrayPath path negIndex)
    have hread : readPath (arrayPath path negIndex) = some (split (arrayPath path negIndex) '.') := by
      have hiff := (readPath_join_iff (split (arrayPath path negIndex) '.')).mpr
        ⟨by rw [hjoin]; exact hnone, plain_of_prefix (prefix_arrayPath hempty path) hpath⟩
      rwa [hjoin] at hiff
    rw [hlib.get data _ _ ⟨hread, hjoin.symm, all_anyName _⟩]

theorem leadingNumber_ne_empty {segment number : String} (h : leadingNumber segment = some number) :
    number ≠ "" := by
  rintro rfl
  unfold leadingNumber negativeMatch at h
  split at h
  · by_cases hdigits : (List.takeWhile Char.isDigit ‹List Char›).isEmpty = true
    · rw [if_pos hdigits] at h
      cases h
    · rw [if_neg hdigits] at h
      exact absurd (congrArg String.toList (Option.some.inj h)) (by simp)
  · cases h

/-- A number is looked up as it should be, and stands where the first of its kind is replaced. -/
structure Finds (data : Json F) (path : String) (pre : List String) (segment : String)
    (rest : List String) (number : String) : Prop where
  /-- the index is that of the array behind the resolved segments, and there is none for a number
  that is not the whole segment -/
  index : itemBefore data path number
    = if number = segment then indexIn segment (getAt pre data) else none
  /-- where there is an index, no such number follows a dot further ahead -/
  first : itemBefore data path number ≠ none →
    ∃ tail, cut (".".intercalate (pre ++ segment :: rest)) ("." ++ segment)
      = some (".".intercalate pre, tail)

/-- Every number of the rest of a path finds its item. -/
def FoundFrom (data : Json F) (path : String) : List String → List String → Prop
  | _, [] => True
  | pre, segment :: rest =>
    (∀ number, leadingNumber segment = some number → Finds data path pre segment rest number) ∧
      FoundFrom data path (pre ++ [resolveSegment data pre segment]) rest

/-- The first segment is no index, and every later number finds its item. -/
def Found (data : Json F) (path : String) : Prop :=
  match split path '.' with
  | [] => True
  | first :: rest => resolveSegment data [] first = first ∧ FoundFrom data path [first] rest

theorem replace_segment {pre rest : List String} {segment tail : String} (new : String)
    (hpre : pre ≠ []) (hcut : cut (".".intercalate (pre ++ segment :: rest)) ("." ++ segment)
      = some (".".intercalate pre, tail)) :
    replaceFirst (".".intercalate (pre ++ segment :: rest)) ("." ++ segment) ("." ++ new)
      = ".".intercalate (pre ++ new :: rest) := by
  have hne : "." ++ segment ≠ "" := by
    intro h
    have := congrArg String.length h
    rw [String.length_append] at this
    simp at this
  obtain ⟨behind, hbehind⟩ := join_cons "." rest
  have hjoin : ∀ piece, ".".intercalate (pre ++ piece :: rest)
      = ".".intercalate pre ++ "." ++ (piece ++ behind) := by
    intro piece
    rw [String.intercalate_append_of_ne_nil hpre (by simp), hbehind]
  have htail : tail = behind := by
    have hchars := ((cut_eq_some_iff hne).mp hcut).1
    rw [hjoin] at hchars
    refine String.toList_inj.mp ?_
    simpa [List.append_assoc] using hchars.symm
  rw [replaceFirst, hcut, hjoin new, htail]
  simp only [String.append_assoc]

theorem run_found (hlib : lib.Documented anyName) {data : Json F}
    {path : String} (hpath : ∀ segment ∈ split path '.', PlainComponent segment) :
    ∀ {rest pre : List String}, pre ≠ [] → FoundFrom data path pre rest →
      (rest.filterMap leadingNumber).foldl (lib.processMatch data path)
          (".".intercalate (pre ++ rest))
        = ".".intercalate (pre ++ resolveSegments data pre rest) := by
  intro rest
  induction rest with
  | nil => intro pre _ _; rfl
  | cons segment rest ih =>
    intro pre hpre hfound
    obtain ⟨hnumber, hrest⟩ := hfound
    have hnext := ih (by simp) hrest
    simp only [List.append_assoc, List.singleton_append] at hnext
    rw [resolveSegments, ← hnext]
    cases hleading : leadingNumber segment with
    | none =>
      have hsame : resolveSegment data pre segment = segment := by
        rw [resolveSegment, hleading, if_neg (by simp)]
      rw [List.filterMap_cons_none hleading, hsame]
    | some number =>
      have hfinds := hnumber number hleading
      have hlooked := @lookedUp_eq _ _ hlib data _ _ hpath
        (leadingNumber_ne_empty hleading)
      rw [List.filterMap_cons_some hleading, List.foldl_cons, processMatch_eq, hlooked]
      by_cases hwhole : number = segment
      · subst hwhole
        have hindex := hfinds.index
        rw [if_pos rfl] at hindex
        rw [resolveSegment, hleading, if_pos rfl]
        cases hitem : indexIn number (getAt pre data) with
        | none => rw [hindex, hitem]; rfl
        | some actualIndex =>
          obtain ⟨tail, hcut⟩ := hfinds.first (by rw [hindex, hitem]; simp)
          rw [hindex, hitem]
          dsimp only
          rw [replace_segment (toString actualIndex) hpre hcut]
          rfl
      · have hindex := hfinds.index
        rw [if_neg hwhole] at hindex
        have hsame : resolveSegment data pre segment = segment := by
          rw [resolveSegment, hleading, if_neg (by simpa using hwhole)]
        rw [hindex, hsame]

/-- **The negative indices of a path are resolved where every number finds its item.** -/
theorem processNegativeIndex_resolves (hlib : lib.Documented anyName)
    {data : Json F} {path : String} (hpath : ∀ segment ∈ split path '.', PlainComponent segment)
    (hfound : Found data path) :
    lib.processNegativeIndex data path
      = ".".intercalate (resolveSegments data [] (split path '.')) := by
  have hjoin := join_split path
  unfold Found at hfound
  cases hsplit : split path '.' with
  | nil => exact absurd hsplit (by simp [split])
  | cons first rest =>
    rw [hsplit] at hfound hpath hjoin
    obtain ⟨hfirst, hrest⟩ := hfound
    have hpath' : ∀ segment ∈ split path '.', PlainComponent segment := by
      rw [hsplit]
      exact hpath
    have hrun := run_found hlib hpath' (by simp) hrest
    have hcode := @processNegativeIndex_eq _ lib data _ _ hpath
    rw [hjoin] at hcode
    rw [List.singleton_append, List.singleton_append, hjoin] at hrun
    rw [hcode, hrun, resolveSegments, hfirst]
    rfl

/-! ### One negative index, and two -/

def nestedItems : Json Nat :=
  .object [("a", .array [.array [.scalar (.string "x")], .array [.scalar (.string "y")]])]

/-- The last item of an array is found. -/
theorem last_item_found : plainLibrary.processNegativeIndex nestedItems "a.-1" = "a.1" := by
  have hsplit : split "a.-1" '.' = ["a", "-1"] := by decide
  have hplain : ∀ segment ∈ split "a.-1" '.', PlainComponent segment := by
    rw [hsplit]
    decide +kernel
  have hfirst : resolveSegment nestedItems [] "a" = "a" := by decide +kernel
  have hfound : Found nestedItems "a.-1" := by
    unfold Found
    rw [hsplit]
    refine ⟨hfirst, ?_, trivial⟩
    intro number hnumber
    have hleading : leadingNumber "-1" = some "-1" := by decide
    rw [hleading] at hnumber
    cases hnumber
    exact ⟨by decide +kernel, fun _ => ⟨"", by decide +kernel⟩⟩
  rw [processNegativeIndex_resolves (plainLibrary_documented anyName) hplain hfound]
  decide +kernel

/-- Of two negative indices the second is resolved at the array of the first. -/
theorem second_index_misread : ¬ ∀ (data : Json Nat) (path : String),
    (∀ segment ∈ split path '.', PlainComponent segment) →
      plainLibrary.processNegativeIndex data path
        = ".".intercalate (resolveSegments data [] (split path '.')) := by
  intro hall
  have hplain : ∀ segment ∈ split "a.-1.-1" '.', PlainComponent segment := by
    have hsplit : split "a.-1.-1" '.' = ["a", "-1", "-1"] := by decide
    rw [hsplit]
    decide +kernel
  have h := hall nestedItems "a.-1.-1" hplain
  have hcode : plainLibrary.processNegativeIndex nestedItems "a.-1.-1" = "a.1.1" := by
    decide +kernel
  have hspec : ".".intercalate (resolveSegments nestedItems [] (split "a.-1.-1" '.')) = "a.1.0" := by
    decide +kernel
  rw [hcode, hspec] at h
  exact absurd h (by decide)

end JulongApi.Override
