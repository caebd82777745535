/-
The places of a document that match a wildcard path, segment by segment.

What is removed at the places of a path of several segments is removed below the first of its steps,
and so is what no array holds twice.
-/
import JulongApi.Lib.JsonRemoval
import JulongApi.Proofs.OverridePlaces

namespace JulongApi.Override

open JsonTree

variable {F : Type}

/-! ### What should be removed -/

def segmentMatches (segment : String) : Step → Bool
  | .field name =>
    trimSpace segment ≠ "" && (trimSpace segment = "*" || trimSpace segment = name)
  | .item index => trimSpace segment = "*" || atoi (trimSpace segment) = some (index : Int)

def pathMatches : List String → List Step → Bool
  | [], [] => true
  | segment :: rest, step :: steps => segmentMatches segment step && pathMatches rest steps
  | [], _ :: _ => false
  | _ :: _, [] => false

structure MatchedAt (segments : List String) (doc : Json F) (steps : List Step) : Prop where
  isMatch : pathMatches segments steps = true
  there : (doc.at steps).isSome = true

theorem length_of_match : ∀ {segments : List String} {steps : List Step},
    pathMatches segments steps = true → steps.length = segments.length := by
  intro segments
  induction segments with
  | nil =>
    intro steps h
    cases steps with
    | nil => rfl
    | cons step steps => cases h
  | cons segment rest ih =>
    intro steps h
    cases steps with
    | nil => cases h
    | cons step steps =>
      rw [pathMatches, Bool.and_eq_true] at h
      exact congrArg (· + 1) (ih h.2)

theorem not_match_nil {segments : List String} (h : segments ≠ []) :
    pathMatches segments [] = false := by
  cases segments with
  | nil => exact absurd rfl h
  | cons segment rest => rfl

theorem not_match_of_nil {steps : List Step} (h : steps ≠ []) : pathMatches [] steps = false := by
  cases steps with
  | nil => exact absurd rfl h
  | cons step steps => rfl

def eachMatched (segment : String) (f : Json F → Json F) : Json F → Json F
  | .scalar value => .scalar value
  | .array items =>
    .array (items.mapIdx fun i item => if segmentMatches segment (.item i) then f item else item)
  | .object fields =>
    .object (fields.map fun field =>
      if segmentMatches segment (.field field.1) then (field.1, f field.2) else field)

variable {segment : String} {rest : List String} {doc : Json F}

theorem without_cons (hrest : rest ≠ []) (doc : Json F) :
    doc.without (pathMatches (segment :: rest))
      = eachMatched segment (Json.without (pathMatches rest)) doc := by
  have hnone : ∀ step, pathMatches (segment :: rest) [step] = false := by
    intro step
    rw [pathMatches, not_match_nil hrest, Bool.and_false]
  have hchild : ∀ (step : Step) (child : Json F),
      child.without (fun steps => pathMatches (segment :: rest) (step :: steps))
        = if segmentMatches segment step then child.without (pathMatches rest) else child := by
    intro step child
    by_cases hstep : segmentMatches segment step = true
    · rw [if_pos hstep]
      exact Json.without_congr child fun steps _ => by rw [pathMatches, hstep, Bool.true_and]
    · rw [if_neg hstep]
      refine Json.without_of_none child fun steps _ => ?_
      rw [pathMatches, Bool.not_eq_true _ |>.mp hstep, Bool.false_and]
  cases doc with
  | scalar value => simp only [Json.without, eachMatched]
  | array items =>
    simp only [Json.without, eachMatched]
    rw [itemsWithout_of_kept fun index => hnone (.item index)]
    simp only [Nat.zero_add, hchild]
  | object fields =>
    simp only [Json.without, eachMatched]
    rw [fieldsWithout_eq, List.filter_eq_self.mpr fun field _ => by rw [hnone]; rfl]
    refine congrArg Json.object (List.map_congr_left fun field _ => ?_)
    rw [hchild]
    by_cases hstep : segmentMatches segment (.field field.1) = true
    · rw [if_pos hstep, if_pos hstep]
    · rw [if_neg hstep, if_neg hstep]

theorem eachMatched_eq_iff {f g : Json F → Json F} (hnames : doc.namesOnce = true) :
    eachMatched segment f doc = eachMatched segment g doc ↔
      ∀ step child, segmentMatches segment step = true → doc.at [step] = some child →
        f child = g child := by
  cases doc with
  | scalar value =>
    refine ⟨fun _ step child _ hchild => ?_, fun _ => rfl⟩
    cases step <;> cases hchild
  | array items =>
    simp only [eachMatched, Json.array.injEq]
    constructor
    · intro h step child hstep hchild
      cases step with
      | field name => cases hchild
      | item index =>
        have hitem : items[index]? = some child := by simpa [Json.at] using hchild
        have hat := congrArg (·[index]?) h
        simpa [List.getElem?_mapIdx, hitem, hstep] using hat
    · intro h
      refine List.ext_getElem? fun index => ?_
      rw [List.getElem?_mapIdx, List.getElem?_mapIdx]
      cases hitem : items[index]? with
      | none => rfl
      | some child =>
        by_cases hstep : segmentMatches segment (.item index) = true
        · rw [Option.map_some, Option.map_some, if_pos hstep, if_pos hstep,
            h (.item index) child hstep (by simp [Json.at, hitem])]
        · rw [Option.map_some, Option.map_some, if_neg hstep, if_neg hstep]
  | object fields =>
    have hnodup := (namesOnce_object hnames).1
    simp only [eachMatched, Json.object.injEq]
    rw [List.map_inj_left]
    constructor
    · intro h step child hstep hchild
      cases step with
      | item index => cases hchild
      | field name =>
        have hfield : getField name fields = some child := by simpa [Json.at] using hchild
        have hat := h (name, child) (mem_of_getField hfield)
        simpa [hstep] using hat
    · intro h field hmem
      by_cases hstep : segmentMatches segment (.field field.1) = true
      · have hfield := getField_of_mem hnodup hmem
        rw [if_pos hstep, if_pos hstep,
          h (.field field.1) field.2 hstep (by simp [Json.at, hfield])]
      · rw [if_neg hstep, if_neg hstep]

/-- No array holds two matched items. -/
def Unshifted (segments : List String) (doc : Json F) : Prop :=
  ∀ parent i j, MatchedAt segments doc (parent ++ [.item i]) →
    MatchedAt segments doc (parent ++ [.item j]) → i = j

theorem MatchedAt.cons_iff {step : Step} {steps : List Step} :
    MatchedAt (segment :: rest) doc (step :: steps) ↔
      segmentMatches segment step = true ∧
        ∃ child, doc.at [step] = some child ∧ MatchedAt rest child steps := by
  constructor
  · rintro ⟨hmatch, hthere⟩
    rw [pathMatches, Bool.and_eq_true] at hmatch
    rw [at_cons] at hthere
    cases hchild : doc.at [step] with
    | none =>
      rw [hchild] at hthere
      cases hthere
    | some child =>
      rw [hchild] at hthere
      exact ⟨hmatch.1, child, rfl, hmatch.2, hthere⟩
  · rintro ⟨hstep, child, hchild, hmatch, hthere⟩
    refine ⟨by rw [pathMatches, hstep, hmatch, Bool.and_true], ?_⟩
    rw [at_cons, hchild]
    exact hthere

theorem unshifted_cons (hrest : rest ≠ []) : Unshifted (segment :: rest) doc ↔
      ∀ step child, segmentMatches segment step = true → doc.at [step] = some child →
        Unshifted rest child := by
  constructor
  · intro h step child hstep hchild parent i j hi hj
    exact h (step :: parent) i j (MatchedAt.cons_iff.mpr ⟨hstep, child, hchild, hi⟩)
      (MatchedAt.cons_iff.mpr ⟨hstep, child, hchild, hj⟩)
  · intro h parent i j hi hj
    cases parent with
    | nil =>
      have hlength := length_of_match hi.isMatch
      exact absurd (List.length_eq_zero_iff.mp (by simpa using hlength.symm)) hrest
    | cons step parent =>
      obtain ⟨hstep, child, hchild, hi⟩ := MatchedAt.cons_iff.mp hi
      obtain ⟨-, child', hchild', hj⟩ := MatchedAt.cons_iff.mp hj
      rw [hchild] at hchild'
      cases hchild'
      exact h step child hstep hchild parent i j hi hj

end JulongApi.Override
