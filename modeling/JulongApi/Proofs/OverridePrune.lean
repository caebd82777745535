/-
What `prune_objects` with a text takes out.

The objects whose type is the text are taken out below the target, with all that is in them, and the
target itself stays whatever it is.  What is kept has its type as before, because a type is a text
and no text is taken out; so a second time nothing is found.
-/
import JulongApi.Lib.JsonRemoval
import JulongApi.OverridePrune
import JulongApi.Proofs.OverridePaths

namespace JulongApi.Override

open JsonTree

variable {F : Type} {lib : PathLibrary F}

def typedAs (v : String) : Json F → Bool
  | .object fields =>
    match getField "type" fields with
    | some (.scalar (.string type)) => type == v
    | _ => false
  | _ => false

def isText : Json F → Bool
  | .scalar (.string _) => true
  | _ => false

mutual

/-- Every member `type` is a string. -/
def Json.typesAreTexts : Json F → Bool
  | .scalar _ => true
  | .array items => itemsTypesAreTexts items
  | .object fields => fieldsTypesAreTexts fields

def itemsTypesAreTexts : List (Json F) → Bool
  | [] => true
  | item :: rest => Json.typesAreTexts item && itemsTypesAreTexts rest

def fieldsTypesAreTexts : List (String × Json F) → Bool
  | [] => true
  | (name, value) :: rest =>
    (name ≠ "type" || isText value) && Json.typesAreTexts value && fieldsTypesAreTexts rest

end

theorem itemsTypesAreTexts_iff {items : List (Json F)} :
    itemsTypesAreTexts items = true ↔ ∀ item ∈ items, Json.typesAreTexts item = true := by
  induction items with
  | nil => simp [itemsTypesAreTexts]
  | cons item rest ih => simp [itemsTypesAreTexts, ih]

variable {fields : List (String × Json F)}

theorem fieldsTypesAreTexts_iff :
    fieldsTypesAreTexts fields = true ↔
      ∀ field ∈ fields, (field.1 = "type" → isText field.2 = true) ∧
        Json.typesAreTexts field.2 = true := by
  induction fields with
  | nil => simp [fieldsTypesAreTexts]
  | cons field rest ih =>
    obtain ⟨name, value⟩ := field
    rw [fieldsTypesAreTexts, Bool.and_eq_true, Bool.and_eq_true, ih, List.forall_mem_cons]
    by_cases hname : name = "type"
    · simp [hname]
    · simp [hname]

theorem typesAreTexts_hereditary :
    Hereditary fun value : Json F => Json.typesAreTexts value = true where
  items := by
    intro items h
    unfold Json.typesAreTexts at h
    exact itemsTypesAreTexts_iff.mp h
  fields := by
    intro fields h field hfield
    unfold Json.typesAreTexts at h
    exact (fieldsTypesAreTexts_iff.mp h field hfield).2

theorem type_text (h : Json.typesAreTexts (.object fields) = true) {value : Json F}
    (hvalue : getField "type" fields = some value) : ∃ text, value = .scalar (.string text) := by
  unfold Json.typesAreTexts at h
  have htext := (fieldsTypesAreTexts_iff.mp h _ (mem_of_getField hvalue)).1 rfl
  cases value with
  | scalar scalar =>
    cases scalar with
    | string text => exact ⟨text, rfl⟩
    | null => cases htext
    | bool b => cases htext
    | number x => cases htext
  | array items => cases htext
  | object fields => cases htext

/-! ### What is kept stays as it is -/

theorem getType_pruned (v : String) : ∀ {fields : List (String × Json F)},
    (∀ field ∈ fields, field.1 = "type" → isText field.2 = true) →
      getField "type" (fieldsPruned (typedAs v) fields) = getField "type" fields := by
  intro fields
  induction fields with
  | nil => intro _; rfl
  | cons field rest ih =>
    obtain ⟨name, value⟩ := field
    intro h
    obtain ⟨hfirst, hrest⟩ := List.forall_mem_cons.mp h
    unfold fieldsPruned
    by_cases hname : name = "type"
    · have htext := hfirst hname
      cases value with
      | array items => cases htext
      | object fields => cases htext
      | scalar scalar =>
        rw [if_neg (by simp [typedAs])]
        simp only [getField, hname, if_true, Json.pruned]
    · by_cases hvalue : typedAs v value = true
      · rw [if_pos hvalue, ih hrest]
        simp [getField, hname]
      · rw [if_neg hvalue]
        simp [getField, hname, ih hrest]

theorem typedAs_staysKept (v : String) :
    StaysKept (F := F) (typedAs v) fun value => Json.typesAreTexts value = true := by
  intro value hvalue hkept
  cases value with
  | scalar scalar => rfl
  | array items => rfl
  | object fields =>
    unfold Json.typesAreTexts at hvalue
    have htype := getType_pruned v fun field hmem =>
      (fieldsTypesAreTexts_iff.mp hvalue field hmem).1
    simp only [typedAs, Json.pruned, htype]
    exact hkept

mutual

theorem typesAreTexts_mapNumber (f : F → F) : ∀ value : Json F,
    Json.typesAreTexts value = true → Json.typesAreTexts (value.mapNumber f) = true
  | .scalar _, _ => by rw [Json.mapNumber, Json.typesAreTexts]
  | .array items, h => by
      rw [Json.mapNumber, Json.typesAreTexts]
      rw [Json.typesAreTexts] at h
      exact itemsTypesAreTexts_mapNumber f items h
  | .object fields, h => by
      rw [Json.mapNumber, Json.typesAreTexts]
      rw [Json.typesAreTexts] at h
      exact fieldsTypesAreTexts_mapNumber f fields h

theorem itemsTypesAreTexts_mapNumber (f : F → F) : ∀ items : List (Json F),
    itemsTypesAreTexts items = true → itemsTypesAreTexts (itemsMapNumber f items) = true
  | [], h => h
  | item :: rest, h => by
      rw [itemsTypesAreTexts, Bool.and_eq_true] at h
      rw [itemsMapNumber, itemsTypesAreTexts, typesAreTexts_mapNumber f item h.1,
        itemsTypesAreTexts_mapNumber f rest h.2]
      rfl

theorem fieldsTypesAreTexts_mapNumber (f : F → F) : ∀ fields : List (String × Json F),
    fieldsTypesAreTexts fields = true → fieldsTypesAreTexts (fieldsMapNumber f fields) = true
  | [], h => h
  | (name, value) :: rest, h => by
      rw [fieldsTypesAreTexts, Bool.and_eq_true, Bool.and_eq_true] at h
      have htext : isText (value.mapNumber f) = isText value := by
        cases value with
        | scalar scalar => cases scalar <;> rfl
        | array items => rfl
        | object fields => rfl
      rw [fieldsMapNumber, fieldsTypesAreTexts, htext, h.1.1,
        typesAreTexts_mapNumber f value h.1.2, fieldsTypesAreTexts_mapNumber f rest h.2]
      rfl

end

theorem typedAs_mapNumber (v : String) (f : F → F) (value : Json F) :
    typedAs v (value.mapNumber f) = typedAs v value := by
  cases value with
  | scalar scalar => rfl
  | array items => rfl
  | object fields =>
    simp only [Json.mapNumber, fieldsMapNumber_eq_map, typedAs, getField_map]
    cases getField "type" fields with
    | none => rfl
    | some type =>
      cases type with
      | array items => rfl
      | object fields => rfl
      | scalar scalar => cases scalar <;> rfl

mutual

theorem typesAreTexts_pruned (q : Json F → Bool) : ∀ value : Json F,
    Json.typesAreTexts value = true → Json.typesAreTexts (value.pruned q) = true
  | .scalar _, _ => by rw [Json.pruned, Json.typesAreTexts]
  | .array items, h => by
      rw [Json.pruned, Json.typesAreTexts]
      rw [Json.typesAreTexts] at h
      exact itemsTypesAreTexts_pruned q items h
  | .object fields, h => by
      rw [Json.pruned, Json.typesAreTexts]
      rw [Json.typesAreTexts] at h
      exact fieldsTypesAreTexts_pruned q fields h

theorem itemsTypesAreTexts_pruned (q : Json F → Bool) : ∀ items : List (Json F),
    itemsTypesAreTexts items = true → itemsTypesAreTexts (itemsPruned q items) = true
  | [], h => h
  | item :: rest, h => by
      rw [itemsTypesAreTexts, Bool.and_eq_true] at h
      have hrest := itemsTypesAreTexts_pruned q rest h.2
      rw [itemsPruned]
      by_cases hitem : q item = true
      · rw [if_pos hitem]
        exact hrest
      · rw [if_neg hitem, itemsTypesAreTexts, typesAreTexts_pruned q item h.1, hrest]
        rfl

theorem fieldsTypesAreTexts_pruned (q : Json F → Bool) : ∀ fields : List (String × Json F),
    fieldsTypesAreTexts fields = true → fieldsTypesAreTexts (fieldsPruned q fields) = true
  | [], h => h
  | (name, value) :: rest, h => by
      rw [fieldsTypesAreTexts, Bool.and_eq_true, Bool.and_eq_true] at h
      have hrest := fieldsTypesAreTexts_pruned q rest h.2
      have htext : isText (value.pruned q) = isText value := by
        cases value with
        | scalar scalar => simp only [Json.pruned]
        | array items => simp only [Json.pruned, isText]
        | object fields => simp only [Json.pruned, isText]
      rw [fieldsPruned]
      by_cases hvalue : q value = true
      · rw [if_pos hvalue]
        exact hrest
      · rw [if_neg hvalue, fieldsTypesAreTexts, htext, h.1.1, typesAreTexts_pruned q value h.1.2,
          hrest]
        rfl

end

/-! ### One pass -/

def typeOptions (v : String) : PruneObjectsOptions F where
  conditions := [fullCondition "type" (some (.scalar (.string v)))]
  logic := "AND"
  recursive := true

theorem parsePruneObjectsOptions_text {raw : String} (h : trimSpace raw ≠ "") :
    parsePruneObjectsOptions (some (.scalar (.string raw)) : Option (Json F))
      = .ok (typeOptions (trimSpace raw)) := by
  unfold parsePruneObjectsOptions
  simp only [h, if_false]
  rfl

def NoType (context : Option (Json F)) : Prop :=
  ∀ data, context = some data → ∃ fields, data = .object fields ∧ getField "type" fields = none

def PathLibrary.ReadsType (lib : PathLibrary F) : Prop :=
  ∀ fields : List (String × Json F), lib.get (.object fields) "type" = getField "type" fields

theorem PathLibrary.Documented.readsType {literal : String → Bool} (hlib : lib.Documented literal)
    (htype : literal "type" = true) : lib.ReadsType := by
  intro fields
  have hread : readPath "type" = some ["type"] := by decide
  have hjoined : "type" = ".".intercalate ["type"] := by decide
  rw [hlib.get _ _ _ ⟨hread, hjoined, by simp [htype]⟩, getAt_object]
  cases getField "type" fields <;> rfl

theorem processNegativeIndex_type (data : Json F) : lib.processNegativeIndex data "type" = "type" := by
  have hnone : negativeMatches "type".toList = [] := by decide
  rw [PathLibrary.processNegativeIndex, hnone]
  rfl

theorem compare_texts (c : Comparison F) (path text v : String) :
    c.compareGjsonValues (fullCondition path (some (.scalar (.string v))))
      (.scalar (.string text)) (.scalar (.string v)) = .ok (text == v) := by
  have hmode : toLower "full" = "full" := by decide
  unfold Comparison.compareGjsonValues fullCondition
  simp only [hmode, if_true]
  rfl

theorem shouldPruneObject_eq (hlib : lib.ReadsType) (c : Comparison F) {v : String}
    {context : Option (Json F)} (hcontext : NoType context)
    (htypes : Json.typesAreTexts (.object fields) = true) :
    shouldPruneObject lib c (typeOptions v) context fields = .ok (typedAs v (.object fields)) := by
  have hcheck : lib.checkSingleCondition c (.object fields) context
        (fullCondition "type" (some (.scalar (.string v)))) = .ok (typedAs v (.object fields)) := by
    have hpath : (fullCondition "type" (some (.scalar (.string v))) : ConditionOperation F).path
        = "type" := rfl
    unfold PathLibrary.checkSingleCondition
    simp only [hpath, processNegativeIndex_type, hlib _, typedAs]
    cases htype : getField "type" fields with
    | none =>
      cases context with
      | none => rfl
      | some data =>
        obtain ⟨fields', rfl, hnone⟩ := hcontext data rfl
        simp [hlib _, hnone, fullCondition]
    | some value =>
      obtain ⟨text, rfl⟩ := type_text htypes htype
      simp only [Option.orElse_some]
      rw [show (fullCondition "type" (some (.scalar (.string v))) : ConditionOperation F).value
        = some (.scalar (.string v)) from rfl, Option.getD_some, compare_texts]
      rfl
  unfold shouldPruneObject PathLibrary.checkConditions
  simp only [typeOptions, List.mapM_cons, List.mapM_nil, hcheck]
  have hand : toUpper "AND" = "AND" := by decide
  cases typedAs v (.object fields) <;> simp [hand, Except.map, Except.mapError, bind, Except.bind,
    pure, Except.pure]

section Pass

variable {c : Comparison F} {v : String} {context : Option (Json F)}

mutual

theorem pruneObjectsNode_eq (hlib : lib.ReadsType) (hcontext : NoType context) :
    ∀ value : Json F, Json.typesAreTexts value = true →
      pruneObjectsNode lib c (typeOptions v) context false value
        = .ok (if typedAs v value then none else some (value.pruned (typedAs v)))
  | .scalar scalar, _ => by
      rw [pruneObjectsNode, Json.pruned]
      rfl
  | .array items, h => by
      rw [Json.typesAreTexts] at h
      rw [pruneObjectsNode, pruneItems_eq hlib hcontext items h, Json.pruned]
      rfl
  | .object fields, h => by
      rw [pruneObjectsNode, shouldPruneObject_eq hlib c hcontext h]
      rw [Json.typesAreTexts] at h
      by_cases hdrop : typedAs v (.object fields) = true
      · simp [hdrop]
      · rw [Bool.not_eq_true] at hdrop
        have hrecursive : (typeOptions v : PruneObjectsOptions F).recursive = true := rfl
        simp only [hdrop, Bool.false_and, hrecursive, Bool.not_true, Bool.false_eq_true, if_false]
        rw [pruneFields_eq hlib hcontext fields h, Json.pruned]
        rfl

theorem pruneItems_eq (hlib : lib.ReadsType) (hcontext : NoType context) :
    ∀ items : List (Json F), itemsTypesAreTexts items = true →
      pruneItems lib c (typeOptions v) context items = .ok (itemsPruned (typedAs v) items)
  | [], _ => by rw [pruneItems, itemsPruned]
  | item :: rest, h => by
      rw [itemsTypesAreTexts, Bool.and_eq_true] at h
      have hrest := pruneItems_eq hlib hcontext rest h.2
      rw [pruneItems, pruneObjectsNode_eq hlib hcontext item h.1, itemsPruned]
      by_cases hitem : typedAs v item = true
      · simp only [hitem, if_true]
        exact hrest
      · simp only [hitem, hrest]
        rfl

theorem pruneFields_eq (hlib : lib.ReadsType) (hcontext : NoType context) :
    ∀ fields : List (String × Json F), fieldsTypesAreTexts fields = true →
      pruneFields lib c (typeOptions v) context fields = .ok (fieldsPruned (typedAs v) fields)
  | [], _ => by rw [pruneFields, fieldsPruned]
  | (name, value) :: rest, h => by
      rw [fieldsTypesAreTexts, Bool.and_eq_true, Bool.and_eq_true] at h
      have hrest := pruneFields_eq hlib hcontext rest h.2
      rw [pruneFields, pruneObjectsNode_eq hlib hcontext value h.1.2, fieldsPruned]
      by_cases hvalue : typedAs v value = true
      · simp only [hvalue, if_true]
        exact hrest
      · simp only [hvalue, hrest]
        rfl

end

theorem pruneRoot_eq (hlib : lib.ReadsType) (hcontext : NoType context) (value : Json F)
    (h : Json.typesAreTexts value = true) :
    pruneObjectsNode lib c (typeOptions v) context true value
      = .ok (some (value.pruned (typedAs v))) := by
  cases value with
  | scalar scalar =>
    rw [pruneObjectsNode, Json.pruned]
  | array items =>
    rw [Json.typesAreTexts] at h
    rw [pruneObjectsNode, pruneItems_eq hlib hcontext items h, Json.pruned]
    rfl
  | object fields =>
    rw [pruneObjectsNode, shouldPruneObject_eq hlib c hcontext h]
    rw [Json.typesAreTexts] at h
    have hrecursive : (typeOptions v : PruneObjectsOptions F).recursive = true := rfl
    simp only [Bool.not_true, Bool.and_false, hrecursive, Bool.false_eq_true, if_false]
    rw [pruneFields_eq hlib hcontext fields h, Json.pruned]
    rfl

end Pass

/-! ### The operation -/

/-- The text of a float64 is read as that float64 again. -/
def PathLibrary.FloatsSettle (lib : PathLibrary F) : Prop :=
  ∀ x, lib.isFloat x = true → lib.float (lib.float x) = lib.float x ∧ lib.isFloat (lib.float x) = true

/-- The path of a target: the whole document, or components by their names. -/
def TargetPath (literal : String → Bool) (path : String) (components : List String) : Prop :=
  path = "" ∧ components = [] ∨ Spells literal path components

section Operation

variable {literal : String → Bool} {c : Comparison F} {raw path : String} {components : List String}
  {context : Option (Json F)}

theorem pruneObjects_eq_ok (hlib : lib.Documented literal) (htype : literal "type" = true)
    (hpath : TargetPath literal path components) (hvalue : trimSpace raw ≠ "")
    (hcontext : NoType context) {data target new : Json F} {steps : List Step}
    (htarget : getAt components data = some target) (hlocate : locate components data = some steps)
    (htypes : Json.typesAreTexts target = true) (hnumbers : target.allNumbers lib.isFloat = true)
    (hnew : data.change
      (fun _ => some ((target.mapNumber lib.float).pruned (typedAs (trimSpace raw)))) steps
        = some new) :
    lib.pruneObjects c data path context (some (.scalar (.string raw))) = .ok new := by
  have hdecode : lib.unmarshal target = .ok (target.mapNumber lib.float) := if_pos hnumbers
  have hprune := @pruneRoot_eq F lib c (trimSpace raw) context (hlib.readsType htype) hcontext
    (target.mapNumber lib.float) (typesAreTexts_mapNumber lib.float target htypes)
  unfold PathLibrary.pruneObjects
  rw [parsePruneObjectsOptions_text hvalue]
  rcases hpath with ⟨rfl, rfl⟩ | hspells
  · cases hlocate
    cases htarget
    have hresult : new = (data.mapNumber lib.float).pruned (typedAs (trimSpace raw)) := by
      cases data <;> exact (Option.some.inj hnew).symm
    simp only [if_true, bind, Except.bind, hdecode, Except.mapError, hprune, Option.getD_some,
      hresult]
  · have hne : path ≠ "" := by
      rintro rfl
      cases hspells.read
    have hset := setAt_of_locate
      ((target.mapNumber lib.float).pruned (typedAs (trimSpace raw))) hlocate
    rw [hnew] at hset
    have hwrite := hlib.set data path components _ new hspells (entersText_of_getAt htarget) hset
    simp only [hne, if_false, hlib.get data path components hspells, htarget, bind,
      Except.bind, hdecode, Except.mapError, hprune, Option.getD_some, hwrite]

/-- **Pruning by a text takes out the objects of that type below the target**, keeps the rest in its
place and finds nothing a second time. -/
theorem prune_objects_exact (hlib : lib.Documented literal) (htype : literal "type" = true)
    (hsettle : lib.FloatsSettle) (c : Comparison F) (hpath : TargetPath literal path components)
    (hvalue : trimSpace raw ≠ "")
    (hcontext : NoType context) {data : Json F} (hnames : data.namesOnce = true)
    (htypes : Json.typesAreTexts data = true) :
    (getAt components data = none →
      lib.pruneObjects c data path context (some (.scalar (.string raw))) = .ok data) ∧
    ∀ target, getAt components data = some target → target.allNumbers lib.isFloat = true →
      ∃ steps result, locate components data = some steps ∧ data.at steps = some target ∧
        lib.pruneObjects c data path context (some (.scalar (.string raw))) = .ok result ∧
        result.at steps = some ((target.without
          (target.holds (typedAs (trimSpace raw)))).mapNumber lib.float) ∧
        (∀ other, Apart steps other → result.at other = data.at other) ∧
        (∀ step below, result.holds (typedAs (trimSpace raw)) (steps ++ step :: below) = false) ∧
        lib.pruneObjects c result path context (some (.scalar (.string raw))) = .ok result := by
  constructor
  · intro hnone
    rcases hpath with ⟨-, rfl⟩ | hspells
    · cases hnone
    · have hne : path ≠ "" := by
        rintro rfl
        cases hspells.read
      unfold PathLibrary.pruneObjects
      rw [parsePruneObjectsOptions_text hvalue]
      simp only [hne, if_false, hlib.get data path components hspells, hnone, bind,
        Except.bind]
  · intro target htarget hnumbers
    obtain ⟨steps, hlocate, hat⟩ := locate_of_getAt htarget
    have htypesTarget := typesAreTexts_hereditary.at htypes hat
    have hnamesTarget := namesOnce_hereditary.at hnames hat
    obtain ⟨hsettled, hsettledNumbers⟩ := Json.mapNumber_settled hsettle target hnumbers
    obtain ⟨result, hchange, hlocated⟩ := change_of_at
      ((target.mapNumber lib.float).pruned (typedAs (trimSpace raw))) hlocate hat
    have hpruned := at_change_self hchange
    have hfloatTypes := typesAreTexts_mapNumber lib.float target htypesTarget
    refine ⟨steps, result, hlocate, hat,
      pruneObjects_eq_ok hlib htype hpath hvalue hcontext htarget hlocate htypesTarget hnumbers hchange,
      ?_, fun other hapart => at_change_apart hapart hchange, ?_, ?_⟩
    · rw [hpruned, Json.mapNumber_pruned lib.float (typedAs_mapNumber _ lib.float),
        Json.pruned_eq_without target hnamesTarget]
    · intro step below
      rw [Json.holds, at_append, hpruned]
      exact not_holds_pruned typesAreTexts_hereditary (typedAs_staysKept _) below _ step hfloatTypes
    · -- what is found the second time has its numbers settled and holds nothing of the type
      have hagain : (((target.mapNumber lib.float).pruned (typedAs (trimSpace raw))).mapNumber
            lib.float).pruned (typedAs (trimSpace raw))
          = (target.mapNumber lib.float).pruned (typedAs (trimSpace raw)) := by
        rw [← Json.mapNumber_pruned lib.float (typedAs_mapNumber _ lib.float), hsettled]
        exact Json.pruned_pruned typesAreTexts_hereditary (typedAs_staysKept _) _ hfloatTypes
      refine pruneObjects_eq_ok hlib htype hpath hvalue hcontext
        ((getAt_of_locate hlocated).trans hpruned) hlocated
        (typesAreTexts_pruned _ _ hfloatTypes)
        (Json.allNumbers_pruned _ _ hsettledNumbers) ?_
      rw [hagain]
      exact change_same hpruned

end Operation

/-! ### Two messages -/

/-- Numbers that are compared as they are. -/
def plainComparison : Comparison Nat where
  text := fun _ => ""
  same := fun a b => a == b
  less := fun a b => decide (a < b)
  regexp := fun _ => .error "no patterns"

def twoTypes : Json Nat :=
  .array [.object [("type", .scalar (.string "x"))], .object [("type", .scalar (.string "y"))]]

/-- The object of the type is taken out. -/
theorem type_taken_out : ∃ result, plainLibrary.pruneObjects plainComparison twoTypes "" none
      (some (.scalar (.string " x"))) = .ok result ∧
    ∀ step below, result.holds (typedAs "x") (step :: below) = false := by
  have hexact := (@prune_objects_exact Nat plainLibrary isName " x" "" [] none
    (plainLibrary_documented isName) (by decide) (fun _ _ => ⟨rfl, rfl⟩) plainComparison
    (.inl ⟨rfl, rfl⟩) (by decide) (fun _ h => by cases h) twoTypes (by decide +kernel)
    (by decide +kernel)).2 twoTypes rfl rfl
  obtain ⟨steps, result, hlocate, -, hresult, -, -, hbelow, -⟩ := hexact
  cases hlocate
  have htrim : trimSpace " x" = "x" := by decide
  rw [htrim] at hbelow
  exact ⟨result, hresult, hbelow⟩

/-- A blank value is refused. -/
theorem blank_refused : ¬ ∀ (data : Json Nat) (v : String), Json.typesAreTexts data = true →
    ∃ result, plainLibrary.pruneObjects plainComparison data "" none
      (some (.scalar (.string v))) = .ok result := by
  intro hall
  obtain ⟨result, hresult⟩ := hall (.object []) "" (by decide)
  cases hresult

end JulongApi.Override
