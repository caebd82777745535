/-
The places a wildcard path matches, and the paths it is expanded to.

Each path is joined from the names and indices that led to a place of the document, and is read
again when the operation is applied.  It leads to its place exactly where each name is plain.
-/
import JulongApi.OverrideWildcard
import JulongApi.Proofs.OverridePaths

namespace JulongApi.Override

open JsonTree

variable {F : Type} {lib : PathLibrary F}

/-! ### What a wildcard path matches -/

/-- A place the segments of a wildcard path match: the components of the path that is generated for
it, and the steps that lead to it. -/
inductive Matched : List String → Json F → List String → List Step → Prop where
  | root (doc : Json F) : Matched [] doc [] []
  | anyField {segment name : String} {rest components : List String} {steps : List Step}
      {fields : List (String × Json F)} {child : Json F} (hsegment : trimSpace segment = "*")
      (hchild : getField name fields = some child) (hrest : Matched rest child components steps) :
      Matched (segment :: rest) (.object fields) (name :: components) (.field name :: steps)
  | anyItem {segment : String} {index : Nat} {rest components : List String} {steps : List Step}
      {items : List (Json F)} {child : Json F} (hsegment : trimSpace segment = "*")
      (hchild : items[index]? = some child) (hrest : Matched rest child components steps) :
      Matched (segment :: rest) (.array items) (toString index :: components)
        (.item index :: steps)
  | field {segment : String} {rest components : List String} {steps : List Step}
      {fields : List (String × Json F)} {child : Json F} (hempty : trimSpace segment ≠ "")
      (hsegment : trimSpace segment ≠ "*")
      (hchild : getField (trimSpace segment) fields = some child)
      (hrest : Matched rest child components steps) :
      Matched (segment :: rest) (.object fields) (trimSpace segment :: components)
        (.field (trimSpace segment) :: steps)
  | newField {segment : String} {fields : List (String × Json F)} (hempty : trimSpace segment ≠ "")
      (hsegment : trimSpace segment ≠ "*") (hnone : getField (trimSpace segment) fields = none) :
      Matched [segment] (.object fields) [trimSpace segment] [.field (trimSpace segment)]
  | item {segment : String} {index : Nat} {rest components : List String} {steps : List Step}
      {items : List (Json F)} {child : Json F} (hindex : atoi (trimSpace segment) = some (index : Int))
      (hchild : items[index]? = some child) (hrest : Matched rest child components steps) :
      Matched (segment :: rest) (.array items) (trimSpace segment :: components)
        (.item index :: steps)

theorem atoi_star : atoi "*" = none := by decide

theorem atoi_empty : atoi "" = none := by decide

namespace Matched

variable {segments components other : List String} {steps : List Step} {doc : Json F}

theorem length_eq (h : Matched segments doc components steps) :
    components.length = steps.length ∧ steps.length = segments.length := by
  induction h with
  | root | newField => exact ⟨rfl, rfl⟩
  | anyField _ _ _ ih | anyItem _ _ _ ih | field _ _ _ _ ih | item _ _ _ ih =>
    exact ⟨congrArg (· + 1) ih.1, congrArg (· + 1) ih.2⟩

theorem components_eq (h : Matched segments doc components steps)
    (h' : Matched segments doc other steps) : components = other := by
  induction h generalizing other with
  | root => cases h'; rfl
  | anyField hsegment hchild _ ih =>
    cases h' with
    | anyField _ hchild' hrest' =>
      rw [hchild] at hchild'
      cases hchild'
      rw [ih hrest']
    | field _ hne => exact absurd hsegment hne
    | newField _ hne => exact absurd hsegment hne
  | anyItem hsegment hchild _ ih =>
    cases h' with
    | anyItem _ hchild' hrest' =>
      rw [hchild] at hchild'
      cases hchild'
      rw [ih hrest']
    | item hindex => rw [hsegment, atoi_star] at hindex; cases hindex
  | field _ hne hchild _ ih =>
    cases h' with
    | anyField hsegment => exact absurd hsegment hne
    | field _ _ hchild' hrest' =>
      rw [hchild] at hchild'
      cases hchild'
      rw [ih hrest']
    | newField _ _ hnone => rw [hchild] at hnone; cases hnone
  | newField _ hne hnone =>
    cases h' with
    | anyField hsegment => exact absurd hsegment hne
    | field _ _ hchild' => rw [hnone] at hchild'; cases hchild'
    | newField => rfl
  | item hindex hchild _ ih =>
    cases h' with
    | anyItem hsegment => rw [hsegment, atoi_star] at hindex; cases hindex
    | item _ hchild' hrest' =>
      rw [hchild] at hchild'
      cases hchild'
      rw [ih hrest']

end Matched

/-! ### What is collected -/

theorem mem_sortedKeys {name : String} {fields : List (String × Json F)} :
    name ∈ sortedKeys fields ↔ ∃ child, getField name fields = some child := by
  rw [sortedKeys, List.mem_insertionSort, List.mem_dedup]
  induction fields with
  | nil => simp [getField]
  | cons field rest ih =>
    obtain ⟨other, value⟩ := field
    by_cases hname : other = name
    · simp [getField, hname]
    · simp [getField, hname, Ne.symm hname, ← ih]

/-- The paths that are collected for the segments are those of the matched places. -/
def Collects (F : Type) (segments : List String) : Prop :=
  ∀ (doc : Json F) (pre path : List String), path ∈ collectWildcardPaths segments doc pre ↔
    ∃ components steps, path = pre ++ components ∧ Matched segments doc components steps

section Collect

variable {segment : String} {rest : List String}

theorem collect_object_star (ih : Collects F rest) (hstar : trimSpace segment = "*")
    (fields : List (String × Json F)) (pre path : List String) :
    path ∈ collectWildcardPaths (segment :: rest) (.object fields) pre ↔
      ∃ components steps, path = pre ++ components ∧
        Matched (segment :: rest) (.object fields) components steps := by
  rw [collect_fields hstar, List.mem_flatMap]
  constructor
  · rintro ⟨name, hname, hpath⟩
    obtain ⟨child, hchild⟩ := mem_sortedKeys.mp hname
    rw [hchild] at hpath
    obtain ⟨components, steps, rfl, h⟩ := (ih _ _ _).mp hpath
    exact ⟨name :: components, .field name :: steps, by simp, .anyField hstar hchild h⟩
  · rintro ⟨components, steps, rfl, h⟩
    cases h with
    | @anyField _ name _ components _ _ child _ hchild hrest =>
      refine ⟨name, mem_sortedKeys.mpr ⟨child, hchild⟩, ?_⟩
      rw [hchild]
      exact (ih _ _ _).mpr ⟨components, _, by simp, hrest⟩
    | field _ hne | newField _ hne => exact absurd hstar hne

theorem collect_array_star (ih : Collects F rest) (hstar : trimSpace segment = "*")
    (items : List (Json F)) (pre path : List String) :
    path ∈ collectWildcardPaths (segment :: rest) (.array items) pre ↔
      ∃ components steps, path = pre ++ components ∧
        Matched (segment :: rest) (.array items) components steps := by
  rw [collect_items hstar, List.mem_flatMap]
  constructor
  · rintro ⟨index, hindex, hpath⟩
    rw [List.mem_range] at hindex
    rw [List.getElem?_eq_getElem hindex] at hpath
    obtain ⟨components, steps, rfl, h⟩ := (ih _ _ _).mp hpath
    exact ⟨toString index :: components, .item index :: steps, by simp,
      .anyItem hstar (List.getElem?_eq_getElem hindex) h⟩
  · rintro ⟨components, steps, rfl, h⟩
    cases h with
    | @anyItem _ index _ components _ _ child _ hchild hrest =>
      refine ⟨index, List.mem_range.mpr (List.getElem?_eq_some_iff.mp hchild).1, ?_⟩
      rw [hchild]
      exact (ih _ _ _).mpr ⟨components, _, by simp, hrest⟩
    | item hindex => rw [hstar, atoi_star] at hindex; cases hindex

theorem collect_object_name (ih : Collects F rest) (hempty : trimSpace segment ≠ "")
    (hstar : trimSpace segment ≠ "*") (fields : List (String × Json F)) (pre path : List String) :
    path ∈ collectWildcardPaths (segment :: rest) (.object fields) pre ↔
      ∃ components steps, path = pre ++ components ∧
        Matched (segment :: rest) (.object fields) components steps := by
  rw [collect_field hempty hstar]
  constructor
  · intro hpath
    by_cases hnil : rest = []
    · subst hnil
      rw [if_pos rfl, List.mem_singleton] at hpath
      refine ⟨[trimSpace segment], [.field (trimSpace segment)], hpath, ?_⟩
      cases hchild : getField (trimSpace segment) fields with
      | some child => exact .field hempty hstar hchild (.root child)
      | none => exact .newField hempty hstar hchild
    · rw [if_neg hnil] at hpath
      cases hchild : getField (trimSpace segment) fields with
      | none => rw [hchild] at hpath; cases hpath
      | some child =>
        rw [hchild] at hpath
        obtain ⟨components, steps, rfl, h⟩ := (ih _ _ _).mp hpath
        exact ⟨trimSpace segment :: components, .field (trimSpace segment) :: steps, by simp,
          .field hempty hstar hchild h⟩
  · rintro ⟨components, steps, rfl, h⟩
    cases h with
    | anyField hsegment => exact absurd hsegment hstar
    | newField => simp
    | @field _ _ components _ _ child _ _ hchild hrest =>
      by_cases hnil : rest = []
      · subst hnil
        cases hrest
        simp
      · rw [if_neg hnil, hchild]
        exact (ih _ _ _).mpr ⟨components, _, by simp, hrest⟩

theorem collect_array_name (ih : Collects F rest) (hempty : trimSpace segment ≠ "")
    (hstar : trimSpace segment ≠ "*") (items : List (Json F)) (pre path : List String) :
    path ∈ collectWildcardPaths (segment :: rest) (.array items) pre ↔
      ∃ components steps, path = pre ++ components ∧
        Matched (segment :: rest) (.array items) components steps := by
  rw [collect_item hempty hstar]
  constructor
  · intro hpath
    cases hatoi : atoi (trimSpace segment) with
    | none => rw [hatoi] at hpath; cases hpath
    | some index =>
      rw [hatoi] at hpath
      dsimp only at hpath
      by_cases hrange : index < 0 ∨ (items.length : Int) ≤ index
      · rw [if_pos hrange] at hpath
        cases hpath
      · rw [if_neg hrange] at hpath
        have hlt : index.toNat < items.length := by omega
        have hnat : atoi (trimSpace segment) = some (index.toNat : Int) := by
          rw [hatoi, Int.toNat_of_nonneg (by omega)]
        have hchild := List.getElem?_eq_getElem hlt
        by_cases hnil : rest = []
        · subst hnil
          rw [if_pos rfl, List.mem_singleton] at hpath
          exact ⟨[trimSpace segment], _, hpath, .item hnat hchild (.root _)⟩
        · rw [if_neg hnil, hchild] at hpath
          obtain ⟨components, steps, rfl, h⟩ := (ih _ _ _).mp hpath
          exact ⟨trimSpace segment :: components, _, by simp, .item hnat hchild h⟩
  · rintro ⟨components, steps, rfl, h⟩
    cases h with
    | anyItem hsegment => exact absurd hsegment hstar
    | @item _ index _ components _ _ child hindex hchild hrest =>
      have hlt := (List.getElem?_eq_some_iff.mp hchild).1
      rw [hindex]
      dsimp only
      rw [if_neg (by omega), Int.toNat_natCast, hchild]
      by_cases hnil : rest = []
      · subst hnil
        cases hrest
        simp
      · rw [if_neg hnil]
        exact (ih _ _ _).mpr ⟨components, _, by simp, hrest⟩

end Collect

theorem collects : ∀ segments : List String, Collects F segments := by
  intro segments
  induction segments with
  | nil =>
    intro doc pre path
    rw [collect_nil, List.mem_singleton]
    constructor
    · intro h
      exact ⟨[], [], by rw [h, List.append_nil], .root doc⟩
    · rintro ⟨components, steps, rfl, h⟩
      cases h
      exact List.append_nil pre
  | cons segment rest ih =>
    intro doc pre path
    by_cases hempty : trimSpace segment = ""
    · rw [collect_of_empty hempty]
      refine ⟨fun h => (by cases h), ?_⟩
      rintro ⟨components, steps, -, h⟩
      cases h with
      | anyField hsegment | anyItem hsegment =>
        rw [hempty] at hsegment
        exact absurd hsegment (by decide)
      | field hne | newField hne => exact absurd hempty hne
      | item hindex => rw [hempty, atoi_empty] at hindex; cases hindex
    · cases doc with
      | scalar value =>
        rw [collect_scalar]
        refine ⟨fun h => (by cases h), ?_⟩
        rintro ⟨components, steps, -, h⟩
        cases h
      | object fields =>
        by_cases hstar : trimSpace segment = "*"
        · exact collect_object_star ih hstar fields pre path
        · exact collect_object_name ih hempty hstar fields pre path
      | array items =>
        by_cases hstar : trimSpace segment = "*"
        · exact collect_array_star ih hstar items pre path
        · exact collect_array_name ih hempty hstar items pre path

/-! ### Numbers are left aside -/

theorem sortedKeys_map (f : Json F → Json F) (fields : List (String × Json F)) :
    sortedKeys (fields.map fun field => (field.1, f field.2)) = sortedKeys fields := by
  rw [sortedKeys, sortedKeys, List.map_map]
  rfl

theorem collect_mapNumber (f : F → F) : ∀ (segments : List String) (doc : Json F)
    (pre : List String), collectWildcardPaths segments (doc.mapNumber f) pre
      = collectWildcardPaths segments doc pre := by
  intro segments
  induction segments with
  | nil => intro doc pre; rfl
  | cons segment rest ih =>
    intro doc pre
    by_cases hempty : trimSpace segment = ""
    · rw [collect_of_empty hempty, collect_of_empty hempty]
    · cases doc with
      | scalar value => rw [Json.mapNumber, collect_scalar, collect_scalar]
      | object fields =>
        simp only [Json.mapNumber, fieldsMapNumber_eq_map]
        by_cases hstar : trimSpace segment = "*"
        · simp only [collect_fields hstar, sortedKeys_map, getField_map]
          refine List.flatMap_congr fun name _ => ?_
          cases getField name fields with
          | none => rfl
          | some child => exact ih child _
        · simp only [collect_field hempty hstar, getField_map]
          by_cases hrest : rest = []
          · rw [if_pos hrest, if_pos hrest]
          · rw [if_neg hrest, if_neg hrest]
            cases getField (trimSpace segment) fields with
            | none => rfl
            | some child => exact ih child _
      | array items =>
        simp only [Json.mapNumber, itemsMapNumber_eq_map]
        by_cases hstar : trimSpace segment = "*"
        · simp only [collect_items hstar, List.length_map, List.getElem?_map]
          refine List.flatMap_congr fun index _ => ?_
          cases items[index]? with
          | none => rfl
          | some child => exact ih child _
        · simp only [collect_item hempty hstar, List.length_map, List.getElem?_map]
          cases atoi (trimSpace segment) with
          | none => rfl
          | some index =>
            dsimp only
            by_cases hrange : index < 0 ∨ (items.length : Int) ≤ index
            · rw [if_pos hrange, if_pos hrange]
            · rw [if_neg hrange, if_neg hrange]
              by_cases hrest : rest = []
              · rw [if_pos hrest, if_pos hrest]
              · rw [if_neg hrest, if_neg hrest]
                cases items[index.toNat]? with
                | none => rfl
                | some child => exact ih child _

/-! ### Where the paths lead -/

/-- A path is generated for a place that a wildcard path matches. -/
def GeneratedFor (path : String) (data : Json F) (generated : String) (steps : List Step) : Prop :=
  ∃ components, Matched (split path '.') data components steps ∧
    generated = ".".intercalate components

variable {data : Json F} {path component : String} {paths : List String}

theorem mem_expand_iff (h : lib.expandWildcardPaths data path = .ok paths) (generated : String) :
    generated ∈ paths ↔ ∃ steps, GeneratedFor path data generated steps := by
  unfold PathLibrary.expandWildcardPaths PathLibrary.unmarshal at h
  by_cases hnumbers : data.allNumbers lib.isFloat
  · rw [if_pos hnumbers] at h
    cases h
    rw [List.mem_eraseDups, List.mem_map]
    constructor
    · rintro ⟨components, hcollected, rfl⟩
      rw [collect_mapNumber] at hcollected
      obtain ⟨components, steps, rfl, hmatched⟩ := (collects _ _ _ _).mp hcollected
      exact ⟨steps, components, hmatched, rfl⟩
    · rintro ⟨steps, components, hmatched, rfl⟩
      refine ⟨components, ?_, rfl⟩
      rw [collect_mapNumber]
      exact (collects _ _ _ _).mpr ⟨components, steps, rfl, hmatched⟩
  · rw [if_neg hnumbers] at h
    cases h

def Addresses (path : String) (doc : Json F) (steps : List Step) : Prop :=
  ∃ components, readPath path = some components ∧ locate components doc = some steps

def PlainStep (component : String) : Step → Prop
  | .field _ => PlainComponent component
  | .item index => itemIndex component = some index

/-- A place whose path is read as it was made. -/
structure PlainPlace (components : List String) (steps : List Step) : Prop where
  notEmpty : ".".intercalate components ≠ ""
  plain : List.Forall₂ PlainStep components steps

/-! ### Components of digits are plain -/

theorem isPlainChar_of_isDigit {c : Char} (h : c.isDigit = true) : isPlainChar c = true := by
  refine isPlainChar_iff.mpr ⟨?_, ?_, ?_⟩
  · rintro rfl
    cases h
  · rintro rfl
    cases h
  · rw [isQueryChar, decide_eq_false_iff_not]
    intro hquery
    simp only [List.mem_cons, List.not_mem_nil, or_false] at hquery
    rcases hquery with rfl | rfl | rfl | rfl | rfl <;> cases h

theorem plainComponent_of_digits (h : ∀ c ∈ component.toList, c.isDigit = true) :
    PlainComponent component := by
  refine ⟨fun c hc => isPlainChar_of_isDigit (h c hc), ?_⟩
  intro hcolon
  exact absurd (h ':' (List.mem_of_head? hcolon)) (by decide)

theorem digits_of_magnitude {digits : List Char} {n : Nat}
    (h : atoi.magnitude digits = some n) : ∀ c ∈ digits, c.isDigit = true := by
  unfold atoi.magnitude at h
  by_cases hdigits : (digits.isEmpty || !digits.all Char.isDigit) = true
  · rw [if_pos hdigits] at h
    cases h
  · have hparts : digits ≠ [] ∧ ∀ c ∈ digits, c.isDigit = true := by simpa using hdigits
    exact hparts.2

theorem plainComponent_of_sign {sign : Char} {digits : List Char}
    (hchars : component.toList = sign :: digits) (hsign : isPlainChar sign = true)
    (hcolon : sign ≠ ':') (h : ∀ c ∈ digits, c.isDigit = true) : PlainComponent component := by
  refine ⟨?_, ?_⟩
  · rw [hchars]
    exact List.forall_mem_cons.mpr ⟨hsign, fun c hc => isPlainChar_of_isDigit (h c hc)⟩
  · rw [hchars, List.head?_cons]
    intro hhead
    exact hcolon (Option.some.inj hhead)

theorem plainComponent_of_atoi {n : Int} (h : atoi component = some n) :
    PlainComponent component := by
  unfold atoi at h
  split at h
  case h_1 digits hchars =>
    obtain ⟨m, hm, -⟩ := Option.bind_eq_some_iff.mp h
    exact plainComponent_of_sign hchars (by decide) (by decide) (digits_of_magnitude hm)
  case h_2 digits hchars =>
    obtain ⟨m, hm, -⟩ := Option.bind_eq_some_iff.mp h
    exact plainComponent_of_sign hchars (by decide) (by decide) (digits_of_magnitude hm)
  case h_3 =>
    obtain ⟨m, hm, -⟩ := Option.bind_eq_some_iff.mp h
    exact plainComponent_of_digits (digits_of_magnitude hm)

/-! ### A path leads to its place where it is plain -/

theorem PlainPlace.components_plain {components : List String} {steps : List Step}
    (h : PlainPlace components steps) : ∀ component ∈ components, PlainComponent component := by
  have hplain := h.plain
  clear h
  induction hplain with
  | nil => intro component hmem; cases hmem
  | @cons component step components steps hstep _ ih =>
    refine List.forall_mem_cons.mpr ⟨?_, ih⟩
    cases step with
    | field name => exact hstep
    | item index => exact plainComponent_of_digits (itemIndex_eq_some hstep).2.1

theorem PlainPlace.read {components : List String} {steps : List Step}
    (h : PlainPlace components steps) :
    readPath (".".intercalate components) = some components :=
  (readPath_join_iff components).mpr ⟨h.notEmpty, h.components_plain⟩

theorem Matched.locate_eq {segments components : List String} {doc : Json F} {steps : List Step}
    (h : Matched segments doc components steps) (hplain : List.Forall₂ PlainStep components steps) :
    locate components doc = some steps := by
  induction h with
  | root => rfl
  | anyField _ hchild _ ih | field _ _ hchild _ ih =>
    cases hplain with
    | cons _ hrest =>
      simp only [locate, hchild]
      rw [ih hrest]
      rfl
  | anyItem _ hchild _ ih | item _ hchild _ ih =>
    cases hplain with
    | cons hstep hrest =>
      simp only [locate, show itemIndex _ = some _ from hstep, hchild]
      rw [ih hrest]
      rfl
  | newField _ _ hnone => simp [locate, hnone]

theorem locate_named : ∀ {components : List String} {doc : Json F} {steps : List Step},
    locate components doc = some steps →
      List.Forall₂ (fun component step =>
        match step with
        | .field name => component = name
        | .item index => itemIndex component = some index) components steps := by
  intro components
  induction components with
  | nil =>
    intro doc steps h
    cases h
    exact .nil
  | cons component rest ih =>
    intro doc steps h
    cases doc with
    | scalar value => cases h
    | object fields =>
      rcases locate_object h with ⟨child, steps', -, hsteps, rfl⟩ | ⟨-, rfl, rfl⟩
      · exact .cons rfl (ih hsteps)
      · exact .cons rfl .nil
    | array items =>
      obtain ⟨index, child, steps', hindex, -, hsteps, rfl⟩ := locate_array h
      exact .cons hindex (ih hsteps)

theorem Matched.named {segments components : List String} {doc : Json F} {steps : List Step}
    (h : Matched segments doc components steps) :
    List.Forall₂ (fun component step =>
      match step with
      | .field name => component = name
      | .item _ => PlainComponent component) components steps := by
  induction h with
  | root => exact .nil
  | anyField _ _ _ ih | field _ _ _ _ ih => exact .cons rfl ih
  | anyItem _ _ _ ih =>
    exact .cons (plainComponent_of_digits (itemIndex_eq_some (itemIndex_toString _)).2.1) ih
  | newField => exact .cons rfl .nil
  | item hindex _ _ ih => exact .cons (plainComponent_of_atoi hindex) ih

/-- **A path leads to the place it was generated for exactly where it is plain.** -/
theorem Matched.addresses_iff {segments components : List String} {doc : Json F}
    {steps : List Step} (h : Matched segments doc components steps) :
    Addresses (".".intercalate components) doc steps ↔ PlainPlace components steps := by
  constructor
  · rintro ⟨read, hread, hlocate⟩
    have hne : ".".intercalate components ≠ "" := by
      intro hempty
      rw [hempty] at hread
      cases hread
    have hchars := hread
    rw [readPath, if_neg hne] at hchars
    have hsame := h.named
    have hnamed := locate_named hlocate
    have hplain : ∀ component ∈ components, PlainComponent component := by
      refine plain_of_read ?_ hchars
      clear hread hlocate hne hchars h
      induction hsame generalizing read with
      | nil => cases hnamed; exact .nil
      | @cons component step _ _ hstep _ ih =>
        cases hnamed with
        | cons hread hrest =>
          refine .cons ?_ (ih _ hrest)
          cases step with
          | field name => exact .inr (hstep.trans hread.symm)
          | item index => exact .inl hstep
    have hjoin := (readPath_join_iff components).mpr ⟨hne, hplain⟩
    rw [hjoin] at hread
    obtain rfl := Option.some.inj hread
    refine ⟨hne, ?_⟩
    clear hread hlocate hchars hsame hjoin hne h
    induction hnamed with
    | nil => exact .nil
    | @cons component step _ _ hstep _ ih =>
      obtain ⟨hcomponent, hrest⟩ := List.forall_mem_cons.mp hplain
      refine .cons ?_ (ih hrest)
      cases step with
      | field name => exact hcomponent
      | item index => exact hstep
  · intro hplain
    exact ⟨components, hplain.read, h.locate_eq hplain.plain⟩

/-! ### The places of a wildcard path -/

/-- A path that names its components and leads to a place. -/
structure LeadsTo (path : String) (doc : Json F) (components : List String) (steps : List Step) :
    Prop where
  joined : path = ".".intercalate components
  read : readPath path = some components
  located : locate components doc = some steps

theorem LeadsTo.spells {doc : Json F} {components : List String} {steps : List Step}
    (h : LeadsTo path doc components steps) : Spells anyName path components :=
  ⟨h.read, h.joined, all_anyName components⟩

/-- Every place that is matched has a path that is read as it was made. -/
def PlainPlaces (path : String) (data : Json F) : Prop :=
  ∀ components steps, Matched (split path '.') data components steps → PlainPlace components steps

/-- The components a path names. -/
def componentsOf (path : String) : List String := (readPath path).getD []

/-- The place a path leads to. -/
def placeOf (data : Json F) (path : String) : List Step := (locate (componentsOf path) data).getD []

theorem Matched.leadsTo {segments components : List String} {steps : List Step}
    (h : Matched segments data components steps) (hplain : PlainPlace components steps) :
    LeadsTo (".".intercalate components) data components steps :=
  ⟨rfl, hplain.read, h.locate_eq hplain.plain⟩

theorem LeadsTo.componentsOf_eq {components : List String} {steps : List Step}
    (h : LeadsTo path data components steps) : componentsOf path = components := by
  rw [componentsOf, h.read, Option.getD_some]

theorem LeadsTo.placeOf_eq {components : List String} {steps : List Step}
    (h : LeadsTo path data components steps) : placeOf data path = steps := by
  rw [placeOf, h.componentsOf_eq, h.located, Option.getD_some]

theorem Matched.apart {segments components others : List String} {steps other : List Step}
    (h : Matched segments data components steps) (h' : Matched segments data others other)
    (hne : components ≠ others) : Apart steps other := by
  refine apart_of_length (h.length_eq.2.trans h'.length_eq.2.symm) ?_
  rintro rfl
  exact hne (h.components_eq h')

theorem nodup_eraseDups : ∀ texts : List String, texts.eraseDups.Nodup
  | [] => List.nodup_nil
  | text :: rest => by
      rw [List.eraseDups_cons, List.nodup_cons, List.mem_eraseDups]
      exact ⟨by simp, nodup_eraseDups (rest.filter fun other => !other == text)⟩
termination_by texts => texts.length
decreasing_by
  have hle := List.length_filter_le (fun other => !other == text) rest
  simp only [List.length_cons]
  omega

theorem nodup_expand (h : lib.expandWildcardPaths data path = .ok paths) : paths.Nodup := by
  unfold PathLibrary.expandWildcardPaths PathLibrary.unmarshal at h
  by_cases hnumbers : data.allNumbers lib.isFloat
  · rw [if_pos hnumbers] at h
    cases h
    exact nodup_eraseDups _
  · rw [if_neg hnumbers] at h
    cases h

theorem applyPaths_eq_ok {apply : Json F → String → Except OverrideError (Json F)} {result : Json F}
    (hwildcard : contains (lib.processNegativeIndex data path) "*" = true)
    (hexpand : lib.expandWildcardPaths data (lib.processNegativeIndex data path) = .ok paths)
    (h : lib.applyPaths apply data path = .ok result) : paths.foldlM apply data = .ok result := by
  unfold PathLibrary.applyPaths PathLibrary.resolveOperationPaths at h
  rw [if_pos hwildcard, hexpand] at h
  exact h

end JulongApi.Override
