/-
Which texts the two parsers of a Midjourney request are right about.

What a text stands for is said first, piece by piece (`simpleChange`, `customIdRequest`).  Of a
simple change the parser looks at the piece behind the space, of a custom id at the second, third
and fourth piece, and where these are not there it panics.
-/
import JulongApi.MidjourneyAction
import JulongApi.Proofs.Strings

namespace JulongApi.MidjourneyAction

/-! ### Characters -/

theorem atoi_singleton (d : Char) : atoi (String.singleton d) =
    if d.isDigit then some ((d.toNat - 48 : Nat) : Int) else none := by
  have hlist : (String.singleton d).toList = [d] := by simp
  unfold atoi
  rw [hlist]
  split
  · next h =>
    obtain ⟨rfl, rfl⟩ := List.cons.inj h
    rfl
  · next h =>
    obtain ⟨rfl, rfl⟩ := List.cons.inj h
    rfl
  · by_cases hdigit : d.isDigit = true
    · have hbound : d.toNat ≤ 57 := by
        simp only [Char.isDigit, Bool.and_eq_true, decide_eq_true_eq] at hdigit
        exact UInt32.le_iff_toNat_le.mp hdigit.2
      have hmagnitude : atoi.magnitude [d] = some (d.toNat - 48) := by
        simp [atoi.magnitude, hdigit]
      rw [hmagnitude, if_pos hdigit]
      exact if_pos (show d.toNat - 48 < 2 ^ 63 by omega)
    · simp [atoi.magnitude, hdigit]

variable {c : Char} {content taskId change action : String}

theorem toLowerChar_eq_iff {low high : Char} (hlow : toLowerChar low = low)
    (hhigh : toLowerChar high = low) (hnat : low.toNat = high.toNat + 32) (hk : low ≠ 'k')
    (hi : low ≠ 'i') : toLowerChar c = low ↔ c = low ∨ c = high := by
  constructor
  · intro h
    rcases toLowerChar_cases c with ⟨-, h'⟩ | ⟨-, h'⟩ | ⟨-, -, h'⟩ | h'
    · exact absurd (h.symm.trans h') hk
    · exact absurd (h.symm.trans h') hi
    · rw [h, hnat] at h'
      exact .inr (Char.toNat_inj.mp (by omega))
    · exact .inl (h'.symm.trans h)
  · rintro (rfl | rfl)
    · exact hlow
    · exact hhigh

/-! ### Simple changes -/

def changeNames : List (Char × String) :=
  [('u', "UPSCALE"), ('U', "UPSCALE"), ('v', "VARIATION"), ('V', "VARIATION")]

def changeIndices : List (Char × Int) := [('1', 1), ('2', 2), ('3', 3), ('4', 4)]

/-- A change, as it is documented: a letter and one digit, or the letter of a reroll. -/
def changeOf (taskId : String) : List Char → Option MidjourneyRequest
  | [c] => if c = 'r' ∨ c = 'R' then some ⟨"", "REROLL", 0, taskId⟩ else none
  | [c, d] =>
    (changeNames.lookup c).bind fun name =>
      (changeIndices.lookup d).map fun index => ⟨"", name, index, taskId⟩
  | _ => none

def simpleChange (content : String) : Option MidjourneyRequest :=
  match split content ' ' with
  | [taskId, change] => if taskId = "" then none else changeOf taskId change.toList
  | _ => none

/-- The pieces behind the space that are read right, by the task id before it. -/
def ChangeReadRight (taskId : String) : List Char → Prop
  | [] => False
  | [c] => changeNames.lookup c = none ∧ (c = 'r' ∨ c = 'R' → taskId ≠ "")
  | c :: d :: rest =>
    (changeNames.lookup c).isSome = true → (changeIndices.lookup d).isSome = true →
      rest = [] ∧ taskId ≠ ""

theorem lookup_changeNames (c : Char) : changeNames.lookup c =
    if toLowerChar c = 'u' then some "UPSCALE"
    else if toLowerChar c = 'v' then some "VARIATION" else none := by
  have hu := @toLowerChar_eq_iff c 'u' 'U' (by decide) (by decide) rfl (by decide) (by decide)
  have hv := @toLowerChar_eq_iff c 'v' 'V' (by decide) (by decide) rfl (by decide) (by decide)
  by_cases hupscale : c = 'u' ∨ c = 'U'
  · rw [if_pos (hu.mpr hupscale)]
    rcases hupscale with rfl | rfl <;> rfl
  rw [if_neg fun h => hupscale (hu.mp h)]
  by_cases hvariation : c = 'v' ∨ c = 'V'
  · rw [if_pos (hv.mpr hvariation)]
    rcases hvariation with rfl | rfl <;> rfl
  rw [if_neg fun h => hvariation (hv.mp h)]
  simp only [not_or] at hupscale hvariation
  simp [changeNames, List.lookup, beq_eq_false_iff_ne.mpr, hupscale, hvariation]

theorem changeIndex_cons (changeParams : MidjourneyRequest) (first d : Char) (rest : List Char) :
    changeIndex changeParams (first :: toLowerChar d :: rest) =
      some ((changeIndices.lookup d).map fun index => { changeParams with index := index }) := by
  have hsame : (toLowerChar d).isDigit = true → toLowerChar d = d := by
    intro hdigit
    rcases toLowerChar_cases d with ⟨-, h⟩ | ⟨-, h⟩ | ⟨hlow, -, h⟩ | h
    · rw [h] at hdigit
      cases hdigit
    · rw [h] at hdigit
      cases hdigit
    · simp only [Char.isDigit, Bool.and_eq_true, decide_eq_true_eq] at hdigit
      have hbound : (toLowerChar d).toNat ≤ 57 := UInt32.le_iff_toNat_le.mp hdigit.2
      omega
    · exact h
  unfold changeIndex
  rw [List.getElem?_cons_succ, List.getElem?_cons_zero, Option.map_some, atoi_singleton]
  by_cases hmem : d = '1' ∨ d = '2' ∨ d = '3' ∨ d = '4'
  · rcases hmem with rfl | rfl | rfl | rfl <;> rfl
  · have hother : ∀ e : Char, e = '1' ∨ e = '2' ∨ e = '3' ∨ e = '4' → d.toNat ≠ e.toNat :=
      fun e he hd => hmem (Char.toNat_inj.mp hd ▸ he)
    have hone : d.toNat ≠ 49 := hother '1' (by simp)
    have htwo : d.toNat ≠ 50 := hother '2' (by simp)
    have hthree : d.toNat ≠ 51 := hother '3' (by simp)
    have hfour : d.toNat ≠ 52 := hother '4' (by simp)
    simp only [not_or] at hmem
    obtain ⟨h₁, h₂, h₃, h₄⟩ := hmem
    have hnone : changeIndices.lookup d = none := by
      simp [changeIndices, List.lookup, beq_eq_false_iff_ne.mpr, h₁, h₂, h₃, h₄]
    rw [hnone]
    by_cases hdigit : (toLowerChar d).isDigit = true
    · rw [if_pos hdigit, hsame hdigit]
      exact congrArg some (if_pos (by omega))
    · rw [if_neg hdigit]
      rfl

theorem convertSimpleChangeParams_of_split {rest : List Char}
    (hsplit : split content ' ' = [taskId, change]) (hchange : change.toList = c :: rest) :
    convertSimpleChangeParams content =
      match changeNames.lookup c with
      | some name =>
        changeIndex ⟨"", name, 0, taskId⟩ (toLowerChar c :: rest.map toLowerChar)
      | none =>
        if (c = 'r' ∨ c = 'R') ∧ rest = [] then some (some ⟨"", "REROLL", 0, taskId⟩)
        else some none := by
  have haction : (toLower change).toList = toLowerChar c :: rest.map toLowerChar := by
    simp [toLower, hchange]
  have hr := @toLowerChar_eq_iff c 'r' 'R' (by decide) (by decide) rfl (by decide) (by decide)
  unfold convertSimpleChangeParams
  rw [hsplit, lookup_changeNames]
  dsimp only
  rw [haction]
  simp only [List.getElem?_cons_zero, Option.bind_some, List.cons.injEq, List.map_eq_nil_iff, hr]
  split
  · rfl
  split
  · rfl
  · rfl

theorem simpleChange_iff_of_split (hsplit : split content ' ' = [taskId, change]) :
    convertSimpleChangeParams content = some (simpleChange content) ↔
      ChangeReadRight taskId change.toList := by
  have hsimple : simpleChange content =
      if taskId = "" then none else changeOf taskId change.toList := by
    rw [simpleChange, hsplit]
  rw [hsimple]
  cases hlist : change.toList with
  | nil =>
    have hnone : convertSimpleChangeParams content = none := by
      simp [convertSimpleChangeParams, hsplit, toLower, hlist]
    simp [hnone, ChangeReadRight]
  | cons c rest =>
    rw [convertSimpleChangeParams_of_split hsplit hlist]
    cases hname : changeNames.lookup c with
    | none =>
      match rest with
      | [] =>
        by_cases hreroll : c = 'r' ∨ c = 'R'
        · by_cases htask : taskId = "" <;> simp [changeOf, ChangeReadRight, hname, hreroll, htask]
        · simp [changeOf, ChangeReadRight, hname, hreroll]
      | [_] | _ :: _ :: _ => simp [changeOf, ChangeReadRight, hname]
    | some name =>
      match rest with
      | [] => simp [ChangeReadRight, hname, changeIndex]
      | d :: more =>
        dsimp only
        rw [List.map_cons, changeIndex_cons]
        cases hindex : changeIndices.lookup d with
        | none => cases more <;> simp [changeOf, ChangeReadRight, hname, hindex]
        | some index =>
          by_cases htask : taskId = "" <;>
            cases more <;> simp [changeOf, ChangeReadRight, hname, hindex, htask]

theorem simpleChange_iff (content : String) :
    convertSimpleChangeParams content = some (simpleChange content) ↔
      ∀ taskId change, split content ' ' = [taskId, change] →
        ChangeReadRight taskId change.toList := by
  constructor
  · intro h taskId change hsplit
    exact (simpleChange_iff_of_split hsplit).mp h
  · intro h
    by_cases hpair : ∃ taskId change, split content ' ' = [taskId, change]
    · obtain ⟨taskId, change, hsplit⟩ := hpair
      exact (simpleChange_iff_of_split hsplit).mpr (h taskId change hsplit)
    · have hother : ∀ taskId change, split content ' ' ≠ [taskId, change] :=
        fun taskId change hsplit => hpair ⟨taskId, change, hsplit⟩
      have hnone : simpleChange content = none := by
        unfold simpleChange
        split
        · next taskId change hsplit => exact absurd hsplit (hother taskId change)
        · rfl
      rw [hnone]
      unfold convertSimpleChangeParams
      split
      · next taskId change hsplit => exact absurd hsplit (hother taskId change)
      · rfl

/-! ### Custom ids -/

def normalAction (action : String) : Option String :=
  if contains action "upsample" then some "UPSCALE"
  else if contains action "variation" then
    if action = "variation" then some "VARIATION"
    else if action = "low_variation" then some "LOW_VARIATION"
    else if action = "high_variation" then some "HIGH_VARIATION"
    else none
  else if contains action "pan" then some "PAN"
  else if contains action "reroll" then some "REROLL"
  else if action = "Outpaint" then some "ZOOM"
  else if action = "CustomZoom" then some "CUSTOM_ZOOM"
  else if action = "Inpaint" then some "INPAINT"
  else none

def needsIndex (action : String) : Bool := contains action "upsample" || action == "variation"

/-- A known action and, where it needs one, an index in the fourth piece. -/
def customIdRequest (midjRequest : MidjourneyRequest) : Option MidjourneyRequest := do
  let splits := splits midjRequest.customId
  let action ← actionOf splits
  let name ← normalAction action
  let index ← if needsIndex action then splits[3]?.bind atoi else some 1
  some { midjRequest with action := name, index := index }

def accepted (result : MidjourneyRequest × Option MidjourneyResponse) : Option MidjourneyRequest :=
  if result.2.isNone then some result.1 else none

/-- The pieces of a custom id that are read right. -/
def PiecesReadRight (splits : List String) : Prop :=
  ∃ action, actionOf splits = some action ∧ (needsIndex action = true → 3 < splits.length) ∧
    (contains action "variation" = true → (normalAction action).isSome = true)

theorem coverPlusAction_of_action {midjRequest : MidjourneyRequest}
    (hcustom : midjRequest.customId ≠ "")
    (haction : actionOf (splits midjRequest.customId) = some action) :
    (coverPlusActionToNormalAction midjRequest).map accepted =
      match needsIndex action, normalAction action with
      | true, some name => (splits midjRequest.customId)[3]?.map fun piece =>
          (atoi piece).map fun index => { midjRequest with action := name, index := index }
      | true, none => none
      | false, some name => some (some { midjRequest with action := name, index := 1 })
      | false, none =>
        some (if contains action "variation" then some { midjRequest with index := 1 } else none) := by
  have hindex : ∀ (before : MidjourneyRequest) (name piece : String),
      accepted (withIndex before name piece) =
        (atoi piece).map fun index => { before with action := name, index := index } := by
    intro before name piece
    unfold withIndex accepted
    cases atoi piece <;> rfl
  unfold coverPlusActionToNormalAction
  rw [if_neg hcustom]
  dsimp only
  rw [haction, Option.bind_some]
  by_cases hblank : action = ""
  · subst hblank
    have hneeds : needsIndex "" = false := by decide
    have hname : normalAction "" = none := by decide
    have hcontains : contains "" "variation" = false := by decide
    simp [hneeds, hname, hcontains, accepted]
  unfold normalAction needsIndex
  by_cases hupsample : contains action "upsample" = true
  · simp [hblank, hupsample, hindex, Function.comp_def]
  by_cases hvariation : contains action "variation" = true
  · by_cases hplain : action = "variation"
    · subst hplain
      simp [hupsample, hvariation, hindex, Function.comp_def]
    have hneeds := beq_false_of_ne hplain
    by_cases hlow : action = "low_variation"
    · subst hlow
      simp [hupsample, hvariation, accepted]
    by_cases hhigh : action = "high_variation"
    · subst hhigh
      simp [hupsample, hvariation, accepted]
    · simp [hblank, hupsample, hvariation, hplain, hneeds, hlow, hhigh, accepted]
  have hneeds : (action == "variation") = false := by
    refine beq_false_of_ne ?_
    rintro rfl
    exact hvariation (by decide)
  by_cases hpan : contains action "pan" = true
  · simp [hblank, hupsample, hvariation, hneeds, hpan, accepted]
  by_cases hreroll : contains action "reroll" = true
  · simp [hblank, hupsample, hvariation, hneeds, hpan, hreroll, accepted]
  by_cases houtpaint : action = "Outpaint"
  · subst houtpaint
    simp [hupsample, hvariation, hpan, hreroll, accepted]
  by_cases hzoom : action = "CustomZoom"
  · subst hzoom
    simp [hupsample, hvariation, hpan, hreroll, accepted]
  by_cases hinpaint : action = "Inpaint"
  · subst hinpaint
    simp [hupsample, hvariation, hpan, hreroll, accepted]
  · simp [hblank, hupsample, hvariation, hneeds, hpan, hreroll, houtpaint, hzoom, hinpaint, accepted]

theorem normalAction_of_needsIndex (h : needsIndex action = true) :
    (normalAction action).isSome = true := by
  unfold needsIndex at h
  rcases Bool.or_eq_true_iff.mp h with hupsample | hplain
  · simp [normalAction, hupsample]
  · obtain rfl := beq_iff_eq.mp hplain
    decide

/-- **Which custom ids are read right.** -/
theorem customIdRequest_iff (midjRequest : MidjourneyRequest) :
    (coverPlusActionToNormalAction midjRequest).map accepted = some (customIdRequest midjRequest) ↔
      midjRequest.customId = "" ∨ PiecesReadRight (splits midjRequest.customId) := by
  by_cases hempty : midjRequest.customId = ""
  · refine iff_of_true ?_ (.inl hempty)
    simp [coverPlusActionToNormalAction, customIdRequest, hempty, accepted, splits, splitCustomId,
      actionOf]
  rw [or_iff_right hempty]
  unfold PiecesReadRight
  cases haction : actionOf (splits midjRequest.customId) with
  | none => simp [coverPlusActionToNormalAction, hempty, haction]
  | some action =>
    rw [coverPlusAction_of_action hempty haction]
    cases hneeds : needsIndex action with
    | false => cases hname : normalAction action <;>
      simp [customIdRequest, haction, hneeds, hname]
    | true =>
      have hknown := normalAction_of_needsIndex hneeds
      obtain ⟨name, hname⟩ := Option.isSome_iff_exists.mp hknown
      cases hpiece : (splits midjRequest.customId)[3]? with
      | none =>
        have hshort := List.getElem?_eq_none_iff.mp hpiece
        simp [hneeds, hname, hshort]
      | some piece =>
        have hlong := (List.getElem?_eq_some_iff.mp hpiece).1
        have hfourth : (splits midjRequest.customId)[3] = piece :=
          Option.some.inj ((List.getElem?_eq_getElem hlong).symm.trans hpiece)
        cases hindex : atoi piece <;>
          simp [customIdRequest, haction, hneeds, hname, hlong, hfourth, hindex]

/-- **What the two parsers make of a text is what it stands for, exactly on these texts.**  On the
others they panic, or accept what stands for nothing. -/
theorem parsers_right_iff (content : String) (midjRequest : MidjourneyRequest) :
    (convertSimpleChangeParams content = some (simpleChange content) ↔
        ∀ taskId change, split content ' ' = [taskId, change] →
          ChangeReadRight taskId change.toList) ∧
      ((coverPlusActionToNormalAction midjRequest).map accepted =
          some (customIdRequest midjRequest) ↔
        midjRequest.customId = "" ∨ PiecesReadRight (splits midjRequest.customId)) :=
  ⟨simpleChange_iff content, customIdRequest_iff midjRequest⟩

/-- A space at the end, and a custom id in one piece. -/
theorem parsers_panic : ¬ ∀ content midjRequest,
    convertSimpleChangeParams content = some (simpleChange content) ∧
      (coverPlusActionToNormalAction midjRequest).map accepted =
        some (customIdRequest midjRequest) := by
  intro hall
  have hwrong := hall "1320098173412546 " ⟨"upscale", "", 0, ""⟩
  revert hwrong
  decide +kernel

end JulongApi.MidjourneyAction
