/-
JSON values read, written and deleted at a path of components.

A component names a field of an object, or by its digits an item of an array.  Writing makes the
containers that are missing: a component of digits asks for an array, filled up with nulls, and any
other for an object.  A component `-1` appends to an array and deletes its last item.  Deleting an
item moves those behind it.
-/
import JulongApi.Lib.JsonTree

namespace JsonTree

variable {F : Type}

/-! ### Components -/

/-- The index a component names: digits alone. -/
def itemIndex (component : String) : Option Nat :=
  if component.toList.isEmpty || !component.toList.all Char.isDigit then none
  else some (component.toList.foldl (fun n c => 10 * n + (c.toNat - '0'.toNat)) 0)

/-- The component for the item behind the last one. -/
def appendComponent : String := "-1"

def Json.null : Json F := .scalar .null

def removeField {α : Type} (name : String) : List (String × α) → List (String × α)
  | [] => []
  | (other, value) :: rest =>
    if other = name then rest else (other, value) :: removeField name rest

/-! ### Reading, writing, deleting -/

def getAt : List String → Json F → Option (Json F)
  | [], doc => some doc
  | component :: rest, .object fields => (getField component fields).bind (getAt rest)
  | component :: rest, .array items =>
    ((itemIndex component).bind fun index => items[index]?).bind (getAt rest)
  | _ :: _, .scalar _ => none

def buildAt (value : Json F) : List String → Json F
  | [] => value
  | component :: rest =>
    match itemIndex component with
    | some index => .array (List.replicate index .null ++ [buildAt value rest])
    | none =>
      if component = appendComponent then .array [buildAt value rest]
      else .object [(component, buildAt value rest)]

def setAt (value : Json F) : List String → Json F → Option (Json F)
  | [], _ => some value
  | component :: rest, .object fields =>
    match getField component fields with
    | some child => (setAt value rest child).map fun new => .object (setField component new fields)
    | none => some (.object (fields ++ [(component, buildAt value rest)]))
  | component :: rest, .array items =>
    match itemIndex component with
    | some index =>
      match items[index]? with
      | some child => (setAt value rest child).map fun new => .array (items.set index new)
      | none =>
        some (.array (items ++ List.replicate (index - items.length) .null ++
          [buildAt value rest]))
    | none =>
      if component = appendComponent then some (.array (items ++ [buildAt value rest]))
      else none
  | component :: rest, .scalar _ =>
    match itemIndex component with
    | some index => some (.array (List.replicate index .null ++ [buildAt value rest]))
    | none => some (.object [(component, buildAt value rest)])

/-- The item a component deletes or goes on in. -/
def deleteIndex (component : String) (length : Nat) : Option Nat :=
  if component = appendComponent ∧ 0 < length then some (length - 1) else itemIndex component

/-- Delete what is there; where nothing is there, nothing changes. -/
def deleteAt : List String → Json F → Json F
  | component :: rest, .object fields =>
    match rest, getField component fields with
    | [], _ => .object (removeField component fields)
    | _ :: _, some child => .object (setField component (deleteAt rest child) fields)
    | _ :: _, none => .object fields
  | component :: rest, .array items =>
    match deleteIndex component items.length with
    | none => .array items
    | some index =>
      match rest, items[index]? with
      | [], _ => .array (items.eraseIdx index)
      | _ :: _, some child => .array (items.set index (deleteAt rest child))
      | _ :: _, none => .array items
  | [], doc | _ :: _, doc => doc

/-- A string in which an object or an array may begin. -/
def Scalar.opens : Scalar F → Bool
  | .string text => text.toList.any fun c => c = '{' || c = '['
  | .null | .bool _ | .number _ => false

/-- The path goes on in such a string. -/
def entersText : List String → Json F → Bool
  | component :: rest, .object fields =>
    match getField component fields with
    | some child => entersText rest child
    | none => false
  | component :: rest, .array items =>
    match (deleteIndex component items.length).bind fun index => items[index]? with
    | some child => entersText rest child
    | none => false
  | _ :: _, .scalar value => value.opens
  | [], _ => false

/-! ### Components of digits -/

variable {index : Nat} {items : List (Json F)} {fields : List (String × Json F)} {doc w : Json F}
  {a b : String} {steps : List Step}

theorem itemIndex_eq_some {component : String} (h : itemIndex component = some index) :
    component ≠ "" ∧ (∀ c ∈ component.toList, c.isDigit = true) ∧
      Nat.ofDigitChars 10 component.toList 0 = index := by
  unfold itemIndex at h
  obtain ⟨hdigits, h⟩ := Option.ite_none_left_eq_some.mp h
  have hparts : component ≠ "" ∧ ∀ c ∈ component.toList, c.isDigit = true := by
    simpa using hdigits
  exact ⟨hparts.1, hparts.2, by rw [Nat.ofDigitChars_eq_foldl]; exact Option.some.inj h⟩

theorem itemIndex_toString (n : Nat) : itemIndex (toString n) = some n := by
  have hchars : (toString n).toList = Nat.toDigits 10 n := Nat.toList_repr
  have hdigits : (Nat.toDigits 10 n).all Char.isDigit = true :=
    List.all_eq_true.mpr fun c hc => Nat.isDigit_of_mem_toDigits (by decide) (by decide) hc
  have hnonempty : (Nat.toDigits 10 n).isEmpty = false := by
    rw [List.isEmpty_eq_false_iff]
    exact Nat.toDigits_ne_nil
  unfold itemIndex
  rw [hchars, hdigits, hnonempty, if_neg (by decide), ← Nat.ofDigitChars_eq_foldl,
    Nat.ofDigitChars_ten_toDigits]

/-! ### Fields -/

section Fields

variable {α : Type} {name other : String}

@[simp] theorem getField_setField_self (new : α) : ∀ fields : List (String × α),
    getField name (setField name new fields) = some new := by
  intro fields
  induction fields with
  | nil => simp [setField, getField]
  | cons field rest ih =>
    obtain ⟨first, value⟩ := field
    by_cases hname : first = name
    · simp [setField, getField, hname]
    · simp [setField, getField, hname, ih]

theorem getField_setField_ne (h : other ≠ name) (new : α) : ∀ fields : List (String × α),
    getField other (setField name new fields) = getField other fields := by
  intro fields
  induction fields with
  | nil => simp [setField, getField, h.symm]
  | cons field rest ih =>
    obtain ⟨first, value⟩ := field
    by_cases hname : first = name
    · simp [setField, getField, hname, h.symm]
    · simp [setField, getField, hname, ih]

theorem getField_removeField_ne (h : other ≠ name) : ∀ fields : List (String × α),
    getField other (removeField name fields) = getField other fields := by
  intro fields
  induction fields with
  | nil => rfl
  | cons field rest ih =>
    obtain ⟨first, value⟩ := field
    by_cases hname : first = name
    · simp [removeField, getField, hname, h.symm]
    · simp [removeField, getField, hname, ih]

theorem removeField_of_none : ∀ {fields : List (String × α)},
    getField name fields = none → removeField name fields = fields := by
  intro fields
  induction fields with
  | nil => intro _; rfl
  | cons field rest ih =>
    obtain ⟨first, value⟩ := field
    intro h
    unfold getField at h
    by_cases hname : first = name
    · rw [if_pos hname] at h
      cases h
    · rw [if_neg hname] at h
      rw [removeField, if_neg hname, ih h]

theorem removeField_setField (new : α) : ∀ fields : List (String × α),
    removeField name (setField name new fields) = removeField name fields := by
  intro fields
  induction fields with
  | nil => simp [setField, removeField]
  | cons field rest ih =>
    obtain ⟨first, value⟩ := field
    by_cases hname : first = name
    · simp [setField, removeField, hname]
    · simp [setField, removeField, hname, ih]

theorem getField_append_of_none {value : α} : ∀ {fields : List (String × α)},
    getField name fields = none → getField name (fields ++ [(name, value)]) = some value := by
  intro fields
  induction fields with
  | nil => intro _; simp [getField]
  | cons field rest ih =>
    obtain ⟨first, old⟩ := field
    intro h
    unfold getField at h
    by_cases hname : first = name
    · rw [if_pos hname] at h
      cases h
    · rw [if_neg hname] at h
      rw [List.cons_append, getField, if_neg hname, ih h]

theorem getField_append_ne (h : other ≠ name) (value : α) : ∀ fields : List (String × α),
    getField other (fields ++ [(name, value)]) = getField other fields := by
  intro fields
  induction fields with
  | nil => simp [getField, h.symm]
  | cons field rest ih =>
    obtain ⟨first, old⟩ := field
    by_cases hfirst : first = other
    · simp [getField, hfirst]
    · simp [getField, hfirst, ih]

end Fields

/-! ### One step into an object or an array -/

section Steps

variable {component : String} {rest : List String} {value : Json F}

@[simp] theorem getAt_nil (doc : Json F) : getAt [] doc = some doc := rfl

theorem getAt_object (fields : List (String × Json F)) :
    getAt (component :: rest) (.object fields) = (getField component fields).bind (getAt rest) :=
  rfl

theorem getAt_array (items : List (Json F)) :
    getAt (component :: rest) (.array items)
      = ((itemIndex component).bind fun index => items[index]?).bind (getAt rest) := rfl

theorem getAt_item (h : itemIndex component = some index) :
    getAt (component :: rest) (.array items) = items[index]?.bind (getAt rest) := by
  rw [getAt_array, h]
  rfl

theorem setAt_object (h : setAt value (component :: rest) (.object fields) = some doc) :
    (∃ child new, getField component fields = some child ∧ setAt value rest child = some new ∧
        doc = .object (setField component new fields)) ∨
      getField component fields = none ∧
        doc = .object (fields ++ [(component, buildAt value rest)]) := by
  unfold setAt at h
  cases hchild : getField component fields with
  | some child =>
    rw [hchild] at h
    obtain ⟨new, hnew, rfl⟩ := Option.map_eq_some_iff.mp h
    exact .inl ⟨child, new, rfl, hnew, rfl⟩
  | none =>
    rw [hchild] at h
    cases h
    exact .inr ⟨rfl, rfl⟩

theorem setAt_item (hindex : itemIndex component = some index)
    (h : setAt value (component :: rest) (.array items) = some doc) :
    (∃ child new, items[index]? = some child ∧ setAt value rest child = some new ∧
        doc = .array (items.set index new)) ∨
      items.length ≤ index ∧
        doc = .array (items ++ List.replicate (index - items.length) .null ++
          [buildAt value rest]) := by
  unfold setAt at h
  rw [hindex] at h
  dsimp only at h
  cases hchild : items[index]? with
  | some child =>
    rw [hchild] at h
    obtain ⟨new, hnew, rfl⟩ := Option.map_eq_some_iff.mp h
    exact .inl ⟨child, new, rfl, hnew, rfl⟩
  | none =>
    rw [hchild] at h
    cases h
    exact .inr ⟨List.getElem?_eq_none_iff.mp hchild, rfl⟩

theorem setAt_array_index (happend : component ≠ appendComponent)
    (h : setAt value (component :: rest) (.array items) = some doc) :
    ∃ index, itemIndex component = some index := by
  cases hindex : itemIndex component with
  | some index => exact ⟨index, rfl⟩
  | none =>
    unfold setAt at h
    rw [hindex] at h
    dsimp only at h
    rw [if_neg happend] at h
    cases h

theorem deleteAt_object (fields : List (String × Json F)) :
    deleteAt [component] (.object fields) = .object (removeField component fields) := rfl

variable {child : Json F}

theorem deleteAt_field (hrest : rest ≠ []) (h : getField component fields = some child) :
    deleteAt (component :: rest) (.object fields)
      = .object (setField component (deleteAt rest child) fields) := by
  cases rest with
  | nil => exact absurd rfl hrest
  | cons next others => simp [deleteAt, h]

theorem deleteIndex_of_ne (h : component ≠ appendComponent) (length : Nat) :
    deleteIndex component length = itemIndex component :=
  if_neg fun hc => h hc.1

theorem deleteAt_erase (h : deleteIndex component items.length = some index) :
    deleteAt [component] (.array items) = .array (items.eraseIdx index) := by
  simp [deleteAt, h]

theorem deleteAt_item (hrest : rest ≠ []) (h : deleteIndex component items.length = some index)
    (hchild : items[index]? = some child) :
    deleteAt (component :: rest) (.array items)
      = .array (items.set index (deleteAt rest child)) := by
  cases rest with
  | nil => exact absurd rfl hrest
  | cons next others => simp [deleteAt, h, hchild]

end Steps

theorem itemIndex_append : itemIndex appendComponent = none := by decide

theorem deleteIndex_of_some {component : String} (h : itemIndex component = some index)
    (length : Nat) : deleteIndex component length = some index := by
  rw [deleteIndex_of_ne ?_ length, h]
  rintro rfl
  rw [itemIndex_append] at h
  cases h

/-! ### Paths that go on in a string -/

@[simp] theorem entersText_nil (doc : Json F) : entersText [] doc = false := by
  cases doc <;> rfl

theorem entersText_object (component : String) (rest : List String)
    (fields : List (String × Json F)) :
    entersText (component :: rest) (.object fields)
      = ((getField component fields).map (entersText rest)).getD false := by
  cases h : getField component fields <;> simp [entersText, h]

theorem entersText_array (component : String) (rest : List String) (items : List (Json F)) :
    entersText (component :: rest) (.array items)
      = (((deleteIndex component items.length).bind fun index => items[index]?).map
          (entersText rest)).getD false := by
  rw [entersText]
  generalize (deleteIndex component items.length).bind (fun index => items[index]?) = child
  cases child <;> rfl

theorem entersText_item {component : String} {rest : List String}
    (h : itemIndex component = some index) :
    entersText (component :: rest) (.array items)
      = (items[index]?.map (entersText rest)).getD false := by
  rw [entersText_array, deleteIndex_of_some h]
  rfl

theorem entersText_mapNumber (f : F → F) : ∀ (path : List String) (doc : Json F),
    entersText path (doc.mapNumber f) = entersText path doc := by
  intro path
  induction path with
  | nil => intro doc; rw [entersText_nil, entersText_nil]
  | cons component rest ih =>
    intro doc
    cases doc with
    | scalar value => cases value <;> rfl
    | object fields =>
      rw [Json.mapNumber, fieldsMapNumber_eq_map, entersText_object, entersText_object, getField_map]
      cases getField component fields with
      | none => rfl
      | some child => exact ih child
    | array items =>
      rw [Json.mapNumber, itemsMapNumber_eq_map, entersText_array, entersText_array,
        List.length_map]
      cases deleteIndex component items.length with
      | none => rfl
      | some index =>
        rw [Option.bind_some, Option.bind_some, List.getElem?_map]
        cases items[index]? with
        | none => rfl
        | some child => exact ih child

/-- **A deletion turns no path into a string that is not longer**: it takes things away at the end
of its own path. -/
theorem entersText_deleteAt : ∀ {path other : List String}, other.length ≤ path.length →
    ∀ doc : Json F, entersText other (deleteAt path doc) = entersText other doc := by
  intro path
  induction path with
  | nil =>
    intro other h doc
    rw [List.length_eq_zero_iff.mp (Nat.le_zero.mp h), entersText_nil, entersText_nil]
  | cons a source ih =>
    intro other h doc
    cases other with
    | nil => rw [entersText_nil, entersText_nil]
    | cons b target =>
      have hlength : target.length ≤ source.length := Nat.le_of_succ_le_succ h
      cases doc with
      | scalar value => rfl
      | object fields =>
        cases source with
        | nil =>
          obtain rfl := List.length_eq_zero_iff.mp (Nat.le_zero.mp hlength)
          rw [deleteAt_object, entersText_object, entersText_object]
          cases getField b (removeField a fields) <;> cases getField b fields <;> simp
        | cons next others =>
          cases hchild : getField a fields with
          | none => simp [deleteAt, hchild]
          | some child =>
            rw [deleteAt_field (by simp) hchild, entersText_object, entersText_object]
            by_cases hab : b = a
            · rw [hab, getField_setField_self, hchild]
              exact ih hlength child
            · rw [getField_setField_ne hab]
      | array items =>
        cases hindex : deleteIndex a items.length with
        | none => simp [deleteAt, hindex]
        | some index =>
          cases source with
          | nil =>
            obtain rfl := List.length_eq_zero_iff.mp (Nat.le_zero.mp hlength)
            rw [deleteAt_erase hindex, entersText_array, entersText_array]
            cases (deleteIndex b (items.eraseIdx index).length).bind
                fun j => (items.eraseIdx index)[j]? <;>
              cases (deleteIndex b items.length).bind fun j => items[j]? <;> simp
          | cons next others =>
            cases hchild : items[index]? with
            | none => simp [deleteAt, hindex, hchild]
            | some child =>
              rw [deleteAt_item (by simp) hindex hchild, entersText_array, entersText_array,
                List.length_set]
              cases hother : deleteIndex b items.length with
              | none => rfl
              | some j =>
                by_cases hij : j = index
                · subst hij
                  have hlt := (List.getElem?_eq_some_iff.mp hchild).1
                  rw [Option.bind_some, Option.bind_some, List.getElem?_set_self hlt, hchild]
                  exact ih hlength child
                · rw [Option.bind_some, Option.bind_some, List.getElem?_set_ne (Ne.symm hij)]

/-! ### What was written is read -/

theorem getAt_buildAt (value : Json F) : ∀ {path : List String}, appendComponent ∉ path →
    getAt path (buildAt value path) = some value := by
  intro path
  induction path with
  | nil => intro _; rfl
  | cons component rest ih =>
    intro happend
    have hcomponent := List.ne_of_not_mem_cons happend
    have hrest := List.not_mem_of_not_mem_cons happend
    unfold buildAt
    cases hindex : itemIndex component with
    | some index =>
      dsimp only
      rw [getAt_item hindex, List.getElem?_append_right (by simp)]
      simpa using ih hrest
    | none =>
      dsimp only
      rw [if_neg (Ne.symm hcomponent), getAt_object]
      simpa [getField] using ih hrest

/-- **A write is read back**, by a path that appends nowhere. -/
theorem getAt_setAt {value : Json F} : ∀ {path : List String} {doc new : Json F},
    appendComponent ∉ path → setAt value path doc = some new → getAt path new = some value := by
  intro path
  induction path with
  | nil =>
    intro doc new _ h
    exact h.symm
  | cons component rest ih =>
    intro doc new happend h
    have hcomponent := List.ne_of_not_mem_cons happend
    have hrest := List.not_mem_of_not_mem_cons happend
    cases doc with
    | object fields =>
      rcases setAt_object h with ⟨child, inner, hchild, hinner, rfl⟩ | ⟨hnone, rfl⟩
      · rw [getAt_object, getField_setField_self]
        exact ih hrest hinner
      · rw [getAt_object, getField_append_of_none hnone]
        exact getAt_buildAt value hrest
    | array items =>
      obtain ⟨index, hindex⟩ := setAt_array_index (Ne.symm hcomponent) h
      rcases setAt_item hindex h with ⟨child, inner, hchild, hinner, rfl⟩ | ⟨hlength, rfl⟩
      · have hlt := (List.getElem?_eq_some_iff.mp hchild).1
        rw [getAt_item hindex, List.getElem?_set_self hlt]
        exact ih hrest hinner
      · rw [getAt_item hindex, List.getElem?_append_right (by simp; omega)]
        have hzero : index - (items ++ List.replicate (index - items.length) Json.null).length
            = 0 := by
          simp
          omega
        rw [hzero]
        exact getAt_buildAt value hrest
    | scalar old =>
      have hbuilt : new = buildAt value (component :: rest) := by
        unfold setAt at h
        unfold buildAt
        cases hindex : itemIndex component with
        | some index =>
          rw [hindex] at h
          exact (Option.some.inj h).symm
        | none =>
          rw [hindex] at h
          dsimp only at h ⊢
          rw [if_neg (Ne.symm hcomponent)]
          exact (Option.some.inj h).symm
      rw [hbuilt]
      exact getAt_buildAt value happend

/-! ### What a deletion takes away -/

theorem setField_of_get {name : String} {value : Json F} : ∀ {fields : List (String × Json F)},
    getField name fields = some value → setField name value fields = fields := by
  intro fields
  induction fields with
  | nil => intro h; cases h
  | cons field rest ih =>
    obtain ⟨other, old⟩ := field
    intro h
    unfold getField at h
    by_cases hname : other = name
    · rw [if_pos hname] at h
      rw [setField, if_pos hname, Option.some.inj h]
    · rw [if_neg hname] at h
      rw [setField, if_neg hname, ih h]

theorem set_of_get {value : Json F} (h : items[index]? = some value) :
    items.set index value = items := by
  obtain ⟨hlt, rfl⟩ := List.getElem?_eq_some_iff.mp h
  exact List.set_getElem_self hlt

theorem deleteAt_of_none : ∀ {path : List String} {doc : Json F}, appendComponent ∉ path →
    getAt path doc = none → deleteAt path doc = doc := by
  intro path
  induction path with
  | nil => intro doc _ h; cases h
  | cons component rest ih =>
    intro doc happend h
    have hcomponent := List.ne_of_not_mem_cons happend
    have hrest := List.not_mem_of_not_mem_cons happend
    cases doc with
    | scalar value => rfl
    | object fields =>
      rw [getAt_object] at h
      cases hchild : getField component fields with
      | none =>
        cases rest with
        | nil => rw [deleteAt_object, removeField_of_none hchild]
        | cons next others => simp [deleteAt, hchild]
      | some child =>
        rw [hchild] at h
        cases rest with
        | nil => cases h
        | cons next others =>
          rw [deleteAt_field (by simp) hchild, ih hrest h, setField_of_get hchild]
    | array items =>
      have hdelete := deleteIndex_of_ne (Ne.symm hcomponent) items.length
      cases hindex : itemIndex component with
      | none => simp [deleteAt, hdelete, hindex]
      | some index =>
        rw [hindex] at hdelete
        rw [getAt_item hindex] at h
        cases hchild : items[index]? with
        | none =>
          have hlength := List.getElem?_eq_none_iff.mp hchild
          cases rest with
          | nil => rw [deleteAt_erase hdelete, List.eraseIdx_of_length_le hlength]
          | cons next others => simp [deleteAt, hdelete, hchild]
        | some child =>
          rw [hchild] at h
          cases rest with
          | nil => cases h
          | cons next others =>
            rw [deleteAt_item (by simp) hdelete hchild, ih hrest h, set_of_get hchild]

theorem nodes_pos (value : Json F) : 0 < value.nodes := by
  cases value with
  | scalar value => exact Nat.one_pos
  | array items =>
    rw [Json.nodes]
    omega
  | object fields =>
    rw [Json.nodes]
    omega

theorem nodes_removeField : ∀ {fields : List (String × Json F)} {name : String} {value : Json F},
    getField name fields = some value →
      fieldNodes (removeField name fields) < fieldNodes fields := by
  intro fields name value
  induction fields with
  | nil => intro h; cases h
  | cons field rest ih =>
    obtain ⟨other, old⟩ := field
    intro h
    unfold getField at h
    by_cases hname : other = name
    · have hpos := nodes_pos old
      rw [removeField, if_pos hname]
      simp only [fieldNodes]
      omega
    · rw [if_neg hname] at h
      have hrest := ih h
      rw [removeField, if_neg hname]
      simp only [fieldNodes]
      omega

theorem nodes_eraseIdx : ∀ {items : List (Json F)} {index : Nat}, index < items.length →
    itemNodes (items.eraseIdx index) < itemNodes items := by
  intro items
  induction items with
  | nil => intro index h; simp at h
  | cons item rest ih =>
    intro index h
    have hpos := nodes_pos item
    cases index with
    | zero =>
      rw [List.eraseIdx_cons_zero]
      simp only [itemNodes]
      omega
    | succ index =>
      have hrest := ih (Nat.lt_of_succ_lt_succ h)
      rw [List.eraseIdx_cons_succ]
      simp only [itemNodes]
      omega

/-- **A deletion takes something away where there is something.** -/
theorem nodes_deleteAt_lt : ∀ {path : List String} {doc value : Json F}, path ≠ [] →
    appendComponent ∉ path → getAt path doc = some value →
      (deleteAt path doc).nodes < doc.nodes := by
  intro path
  induction path with
  | nil => intro doc value hne; exact absurd rfl hne
  | cons component rest ih =>
    intro doc value _ happend h
    have hcomponent := List.ne_of_not_mem_cons happend
    have hrest := List.not_mem_of_not_mem_cons happend
    cases doc with
    | scalar value => cases h
    | object fields =>
      obtain ⟨child, hchild, h⟩ := Option.bind_eq_some_iff.mp h
      cases rest with
      | nil =>
        have hless := nodes_removeField hchild
        rw [deleteAt_object, Json.nodes, Json.nodes]
        omega
      | cons next others =>
        have hless := ih (by simp) hrest h
        have hsum := sum_map_setField (fun field : String × Json F => field.2.nodes)
          (deleteAt (next :: others) child) hchild
        dsimp only at hsum
        rw [deleteAt_field (by simp) hchild, Json.nodes, Json.nodes, fieldNodes_eq_sum,
          fieldNodes_eq_sum]
        omega
    | array items =>
      rw [getAt_array] at h
      obtain ⟨child, hfound, h⟩ := Option.bind_eq_some_iff.mp h
      obtain ⟨index, hindex, hchild⟩ := Option.bind_eq_some_iff.mp hfound
      have hdelete := deleteIndex_of_ne (Ne.symm hcomponent) items.length
      rw [hindex] at hdelete
      cases rest with
      | nil =>
        have hless := nodes_eraseIdx (List.getElem?_eq_some_iff.mp hchild).1
        rw [deleteAt_erase hdelete, Json.nodes, Json.nodes]
        omega
      | cons next others =>
        have hless := ih (by simp) hrest h
        have hsum := sum_map_set Json.nodes (deleteAt (next :: others) child) hchild
        rw [deleteAt_item (by simp) hdelete hchild, Json.nodes, Json.nodes,
          itemNodes_eq_sum, itemNodes_eq_sum]
        omega

/-! ### Moving a value -/

/-- What makes a value `v`, written as `w` at one path and then deleted at another, arrive: the
paths part at an object, or at an array where no item moves, or the deletion brings the same value
to the place. -/
def Arrives (v w : Json F) : List String → List String → Json F → Prop
  | a :: source, b :: target, .object fields =>
    if a = b then
      match source, target with
      -- another field of the name
      | [], _ => (getField a (removeField a fields)).bind (getAt target) = some v
      | _ :: _, [] => getAt source w = none ∧ w = v
      | _ :: _, _ :: _ =>
        ∃ child, getField a fields = some child ∧ Arrives v w source target child
    else w = v
  | a :: source, b :: target, .array items =>
    match itemIndex a, itemIndex b with
    | some i, some j =>
      if i = j then
        match source, target with
        -- the item behind moves here
        | [], _ => items[i + 1]?.bind (getAt target) = some v
        | _ :: _, [] => getAt source w = none ∧ w = v
        | _ :: _, _ :: _ => ∃ child, items[i]? = some child ∧ Arrives v w source target child
      else if source = [] ∧ i < j then items[j + 1]?.bind (getAt target) = some v
      else w = v
    | _, _ => False
  | _, _, _ => False

variable {v : Json F} {i j : Nat} {target : List String} {step : Step}

/-- A value from which something was deleted is itself only where nothing was there. -/
theorem deleteAt_eq_iff (hnodes : w.nodes = v.nodes) {path : List String} (hpath : path ≠ [])
    (happend : appendComponent ∉ path) : deleteAt path w = v ↔ getAt path w = none ∧ w = v := by
  cases hget : getAt path w with
  | none => simp [deleteAt_of_none happend hget]
  | some value =>
    have hless := nodes_deleteAt_lt hpath happend hget
    constructor
    · intro h
      rw [h, hnodes] at hless
      exact absurd hless (Nat.lt_irrefl _)
    · rintro ⟨h, -⟩
      cases h

theorem getAt_deleteAt_field_ne (h : b ≠ a) (source target : List String)
    (fields : List (String × Json F)) :
    getAt (b :: target) (deleteAt (a :: source) (.object fields))
      = getAt (b :: target) (.object fields) := by
  cases source with
  | nil => rw [deleteAt_object, getAt_object, getAt_object, getField_removeField_ne h]
  | cons next others =>
    cases hchild : getField a fields with
    | none => simp [deleteAt, hchild]
    | some child =>
      rw [deleteAt_field (by simp) hchild, getAt_object, getAt_object,
        getField_setField_ne h]

theorem getAt_deleteAt_item_ne {source : List String} (hi : deleteIndex a items.length = some i)
    (hj : itemIndex b = some j) (hne : i ≠ j) (hplace : source = [] → j < i) :
    getAt (b :: target) (deleteAt (a :: source) (.array items))
      = getAt (b :: target) (.array items) := by
  cases source with
  | nil =>
    have hlt := hplace rfl
    rw [deleteAt_erase hi, getAt_item hj, getAt_item hj, List.getElem?_eraseIdx_of_lt hlt]
  | cons next others =>
    cases hchild : items[i]? with
    | none => simp [deleteAt, hi, hchild]
    | some child =>
      rw [deleteAt_item (by simp) hi hchild, getAt_item hj, getAt_item hj,
        List.getElem?_set_ne hne]

theorem getAt_deleteAt_behind (hi : deleteIndex a items.length = some i) (hj : itemIndex b = some j)
    (hle : i ≤ j) :
    getAt (b :: target) (deleteAt [a] (.array items)) = items[j + 1]?.bind (getAt target) := by
  rw [deleteAt_erase hi, getAt_item hj, List.getElem?_eraseIdx_of_ge hle]

theorem setAt_item_frame {component : String} {rest : List String} {value : Json F}
    (hindex : itemIndex component = some index)
    (h : setAt value (component :: rest) (.array items) = some doc) :
    ∃ new, doc = .array new ∧
      ∀ k, k ≠ index → k < items.length ∨ index < k → new[k]? = items[k]? := by
  rcases setAt_item hindex h with ⟨child, inner, hchild, -, rfl⟩ | ⟨hlength, rfl⟩
  · exact ⟨_, rfl, fun k hk _ => List.getElem?_set_ne (Ne.symm hk)⟩
  · refine ⟨_, rfl, ?_⟩
    intro k hk hplace
    rcases hplace with hlt | hgt
    · rw [List.append_assoc, List.getElem?_append_left hlt]
    · rw [List.getElem?_eq_none (by simp; omega), List.getElem?_eq_none (by omega)]

/-- **A move brings the value to its target exactly where it arrives.** -/
theorem arrives_iff (hnodes : w.nodes = v.nodes) :
    ∀ {source target : List String} {doc new : Json F}, source ≠ [] → target ≠ [] →
      appendComponent ∉ source → appendComponent ∉ target → getAt source doc = some v →
        setAt w target doc = some new →
          (getAt target (deleteAt source new) = some v ↔ Arrives v w source target doc) := by
  intro source
  induction source with
  | nil => intro target doc new h; exact absurd rfl h
  | cons a source ih =>
    intro target doc new _ htarget hsource happend hget hset
    have hread := getAt_setAt happend hset
    cases target with
    | nil => exact absurd rfl htarget
    | cons b target =>
      have ha := List.ne_of_not_mem_cons hsource
      have hb := List.ne_of_not_mem_cons happend
      have hsource' := List.not_mem_of_not_mem_cons hsource
      have happend' := List.not_mem_of_not_mem_cons happend
      cases doc with
      | scalar value => cases hget
      | object fields =>
        obtain ⟨child, hchild, hget⟩ := Option.bind_eq_some_iff.mp hget
        by_cases hab : a = b
        · subst hab
          obtain ⟨inner, hinner, rfl⟩ : ∃ inner, setAt w target child = some inner ∧
              new = .object (setField a inner fields) := by
            rcases setAt_object hset with ⟨other, inner, hother, hinner, hnew⟩ | ⟨hnone, -⟩
            · rw [hchild] at hother
              cases hother
              exact ⟨inner, hinner, hnew⟩
            · rw [hchild] at hnone
              cases hnone
          unfold Arrives
          rw [if_pos rfl]
          cases source with
          | nil => rw [deleteAt_object, removeField_setField, getAt_object]
          | cons next others =>
            rw [deleteAt_field (by simp) (getField_setField_self inner fields),
              getAt_object, getField_setField_self]
            cases target with
            | nil =>
              obtain rfl : w = inner := Option.some.inj hinner
              show some (deleteAt (next :: others) w) = some v ↔ _
              rw [Option.some.injEq, deleteAt_eq_iff hnodes (by simp) hsource']
            | cons first rest =>
              have hstep := ih (by simp) (by simp) hsource' happend' hget hinner
              rw [Option.bind_some, hstep]
              simp [hchild]
        · have hsplit : ∃ fields', new = .object fields' := by
            rcases setAt_object hset with ⟨_, _, _, _, rfl⟩ | ⟨_, rfl⟩
            · exact ⟨_, rfl⟩
            · exact ⟨_, rfl⟩
          obtain ⟨fields', rfl⟩ := hsplit
          unfold Arrives
          rw [if_neg hab, getAt_deleteAt_field_ne (Ne.symm hab), hread, Option.some.injEq]
      | array items =>
        rw [getAt_array] at hget
        obtain ⟨child, hfound, hget⟩ := Option.bind_eq_some_iff.mp hget
        obtain ⟨i, hi, hchild⟩ := Option.bind_eq_some_iff.mp hfound
        obtain ⟨j, hj⟩ := setAt_array_index (Ne.symm hb) hset
        obtain ⟨items', rfl, hframe⟩ := setAt_item_frame hj hset
        have hlt := (List.getElem?_eq_some_iff.mp hchild).1
        have hdelete : deleteIndex a items'.length = some i := by
          rw [deleteIndex_of_ne (Ne.symm ha), hi]
        unfold Arrives
        rw [hi, hj]
        dsimp only
        by_cases hij : i = j
        · subst hij
          rw [if_pos rfl]
          cases source with
          | nil =>
            rw [getAt_deleteAt_behind hdelete hj (Nat.le_refl i),
              hframe (i + 1) (by omega) (.inr (by omega))]
          | cons next others =>
            obtain ⟨inner, hinner, hitem⟩ : ∃ inner, setAt w target child = some inner ∧
                items'[i]? = some inner := by
              rcases setAt_item hj hset with ⟨other, inner, hother, hinner, hnew⟩ | ⟨hle, -⟩
              · rw [hchild] at hother
                cases hother
                refine ⟨inner, hinner, ?_⟩
                rw [(Json.array.injEq _ _).mp hnew, List.getElem?_set_self hlt]
              · omega
            have hlt' := (List.getElem?_eq_some_iff.mp hitem).1
            rw [deleteAt_item (by simp) hdelete hitem, getAt_item hj,
              List.getElem?_set_self hlt']
            cases target with
            | nil =>
              obtain rfl : w = inner := Option.some.inj hinner
              show some (deleteAt (next :: others) w) = some v ↔ _
              rw [Option.some.injEq, deleteAt_eq_iff hnodes (by simp) hsource']
            | cons first rest =>
              have hstep := ih (by simp) (by simp) hsource' happend' hget hinner
              rw [Option.bind_some, hstep]
              simp [hchild]
        · rw [if_neg hij]
          by_cases hshift : source = [] ∧ i < j
          · rw [if_pos hshift]
            obtain ⟨rfl, hless⟩ := hshift
            rw [getAt_deleteAt_behind hdelete hj (Nat.le_of_lt hless),
              hframe (j + 1) (by omega) (.inr (by omega))]
          · have hplace : source = [] → j < i := by
              intro hnil
              have hnot : ¬ i < j := fun h => hshift ⟨hnil, h⟩
              omega
            rw [if_neg hshift, getAt_deleteAt_item_ne hdelete hj hij hplace, hread,
              Option.some.injEq]

/-! ### The place of a path in a document -/

/-- The value at the end of some steps. -/
def Json.at : List Step → Json F → Option (Json F)
  | [], doc => some doc
  | .field name :: rest, .object fields => (getField name fields).bind (Json.at rest)
  | .item index :: rest, .array items => items[index]?.bind (Json.at rest)
  | .field _ :: _, .scalar _ | .field _ :: _, .array _ | .item _ :: _, .scalar _
  | .item _ :: _, .object _ => none

@[simp] theorem at_field (name : String) (fields : List (String × Json F)) :
    (Json.object fields).at [.field name] = getField name fields := by
  cases h : getField name fields <;> simp [Json.at, h]

@[simp] theorem at_item (index : Nat) (items : List (Json F)) :
    (Json.array items).at [.item index] = items[index]? := by
  cases h : items[index]? <;> simp [Json.at, h]

theorem at_cons (doc : Json F) (step : Step) (steps : List Step) :
    doc.at (step :: steps) = (doc.at [step]).bind (Json.at steps) := by
  cases step <;> cases doc <;> simp [Json.at]

theorem at_append (doc : Json F) (steps below : List Step) :
    doc.at (steps ++ below) = (doc.at steps).bind (Json.at below) := by
  induction steps generalizing doc with
  | nil => cases doc <;> rfl
  | cons step rest ih =>
    rw [List.cons_append, at_cons, at_cons doc step rest, Option.bind_assoc]
    exact congrArg _ (funext ih)

/-- The steps the components of a path take; the last one may be a field that is not there. -/
def locate : List String → Json F → Option (List Step)
  | [], _ => some []
  | component :: rest, .object fields =>
    match getField component fields with
    | some child => (locate rest child).map (.field component :: ·)
    | none => if rest = [] then some [.field component] else none
  | component :: rest, .array items =>
    match itemIndex component with
    | some index =>
      match items[index]? with
      | some child => (locate rest child).map (.item index :: ·)
      | none => none
    | none => none
  | _ :: _, .scalar _ => none

theorem locate_object {component : String} {rest : List String}
    (h : locate (component :: rest) (.object fields) = some steps) :
    (∃ child steps', getField component fields = some child ∧ locate rest child = some steps' ∧
        steps = .field component :: steps') ∨
      getField component fields = none ∧ rest = [] ∧ steps = [.field component] := by
  unfold locate at h
  cases hchild : getField component fields with
  | some child =>
    rw [hchild] at h
    obtain ⟨steps', hsteps, rfl⟩ := Option.map_eq_some_iff.mp h
    exact .inl ⟨child, steps', rfl, hsteps, rfl⟩
  | none =>
    rw [hchild] at h
    obtain ⟨hrest, h⟩ := Option.ite_none_right_eq_some.mp h
    exact .inr ⟨rfl, hrest, (Option.some.inj h).symm⟩

theorem locate_array {component : String} {rest : List String}
    (h : locate (component :: rest) (.array items) = some steps) :
    ∃ index child steps', itemIndex component = some index ∧ items[index]? = some child ∧
      locate rest child = some steps' ∧ steps = .item index :: steps' := by
  unfold locate at h
  cases hindex : itemIndex component with
  | none =>
    rw [hindex] at h
    cases h
  | some index =>
    rw [hindex] at h
    dsimp only at h
    cases hchild : items[index]? with
    | none =>
      rw [hchild] at h
      cases h
    | some child =>
      rw [hchild] at h
      obtain ⟨steps', hsteps, rfl⟩ := Option.map_eq_some_iff.mp h
      exact ⟨index, child, steps', rfl, hchild, hsteps, rfl⟩

theorem getAt_of_locate : ∀ {components : List String} {doc : Json F} {steps : List Step},
    locate components doc = some steps → getAt components doc = doc.at steps := by
  intro components
  induction components with
  | nil =>
    intro doc steps h
    cases h
    rfl
  | cons component rest ih =>
    intro doc steps h
    cases doc with
    | scalar value => cases h
    | object fields =>
      rw [getAt_object]
      rcases locate_object h with ⟨child, steps', hchild, hsteps, rfl⟩ | ⟨hnone, -, rfl⟩
      · rw [Json.at, hchild]
        exact ih hsteps
      · rw [Json.at, hnone]
        rfl
    | array items =>
      obtain ⟨index, child, steps', hindex, hchild, hsteps, rfl⟩ := locate_array h
      rw [getAt_item hindex, Json.at, hchild]
      exact ih hsteps

theorem entersText_of_locate : ∀ {components : List String} {doc : Json F} {steps : List Step},
    locate components doc = some steps → entersText components doc = false := by
  intro components
  induction components with
  | nil => intro doc steps _; exact entersText_nil doc
  | cons component rest ih =>
    intro doc steps h
    cases doc with
    | scalar value => cases h
    | object fields =>
      rw [entersText_object]
      rcases locate_object h with ⟨child, steps', hchild, hsteps, -⟩ | ⟨hnone, -, -⟩
      · rw [hchild]
        exact ih hsteps
      · rw [hnone]
        rfl
    | array items =>
      obtain ⟨index, child, steps', hindex, hchild, hsteps, -⟩ := locate_array h
      rw [entersText_item hindex, hchild]
      exact ih hsteps

theorem setAt_of_locate (value : Json F) : ∀ {components : List String} {doc : Json F}
    {steps : List Step}, locate components doc = some steps →
      setAt value components doc = doc.change (fun _ => some value) steps := by
  intro components
  induction components with
  | nil =>
    intro doc steps h
    cases h
    rfl
  | cons component rest ih =>
    intro doc steps h
    cases doc with
    | scalar old => cases h
    | object fields =>
      rcases locate_object h with ⟨child, steps', hchild, hsteps, rfl⟩ | ⟨hnone, rfl, rfl⟩
      · simp only [setAt, Json.change, hchild]
        rw [ih hsteps]
      · simp only [setAt, Json.change, hnone, buildAt, if_true, Option.map_some]
        rw [setField_of_none hnone]
    | array items =>
      obtain ⟨index, child, steps', hindex, hchild, hsteps, rfl⟩ := locate_array h
      simp only [setAt, Json.change, hindex, hchild]
      rw [ih hsteps]

/-! ### Changes at one place -/

/-- Two places of which neither holds the other. -/
def Apart (steps other : List Step) : Prop := ¬ steps <+: other ∧ ¬ other <+: steps

theorem Apart.symm {other : List Step} (h : Apart steps other) : Apart other steps :=
  ⟨h.2, h.1⟩

theorem Apart.tail {other : List Step} (h : Apart (step :: steps) (step :: other)) :
    Apart steps other :=
  ⟨fun hprefix => h.1 (by simpa using hprefix), fun hprefix => h.2 (by simpa using hprefix)⟩

theorem apart_of_length {other : List Step} (hlength : steps.length = other.length)
    (hne : steps ≠ other) : Apart steps other :=
  ⟨fun h => hne (h.eq_of_length hlength), fun h => hne (h.eq_of_length hlength.symm).symm⟩

theorem change_cons {value new : Json F}
    (h : doc.change (fun _ => some value) (step :: steps) = some new) :
    (∃ name fields child inner, step = .field name ∧ doc = .object fields ∧
        (getField name fields = some child ∨ getField name fields = none ∧ steps = []) ∧
        child.change (fun _ => some value) steps = some inner ∧
        new = .object (setField name inner fields)) ∨
      ∃ index items child inner, step = .item index ∧ doc = .array items ∧
        items[index]? = some child ∧ child.change (fun _ => some value) steps = some inner ∧
        new = .array (items.set index inner) := by
  cases step with
  | field name =>
    cases doc with
    | scalar old => cases h
    | array items => cases h
    | object fields =>
      unfold Json.change at h
      cases hchild : getField name fields with
      | some child =>
        rw [hchild] at h
        obtain ⟨inner, hinner, rfl⟩ := Option.map_eq_some_iff.mp h
        exact .inl ⟨name, fields, child, inner, rfl, rfl, .inl hchild, hinner, rfl⟩
      | none =>
        rw [hchild] at h
        obtain ⟨hsteps, h⟩ := Option.ite_none_right_eq_some.mp h
        obtain ⟨inner, hinner, rfl⟩ := Option.map_eq_some_iff.mp h
        refine .inl ⟨name, fields, value, inner, rfl, rfl, .inr ⟨hchild, hsteps⟩, ?_, rfl⟩
        rw [hsteps]
        exact hinner
  | item index =>
    cases doc with
    | scalar old => cases h
    | object fields => cases h
    | array items =>
      unfold Json.change at h
      cases hchild : items[index]? with
      | none =>
        rw [hchild] at h
        cases h
      | some child =>
        rw [hchild] at h
        obtain ⟨inner, hinner, rfl⟩ := Option.map_eq_some_iff.mp h
        exact .inr ⟨index, items, child, inner, rfl, rfl, hchild, hinner, rfl⟩

theorem at_change_self {value : Json F} : ∀ {steps : List Step} {doc new : Json F},
    doc.change (fun _ => some value) steps = some new → new.at steps = some value := by
  intro steps
  induction steps with
  | nil =>
    intro doc new h
    cases doc <;> exact h.symm
  | cons step rest ih =>
    intro doc new h
    rcases change_cons h with ⟨name, fields, child, inner, rfl, rfl, -, hinner, rfl⟩ |
      ⟨index, items, child, inner, rfl, rfl, hchild, hinner, rfl⟩
    · rw [Json.at, getField_setField_self]
      exact ih hinner
    · rw [Json.at, List.getElem?_set_self (List.getElem?_eq_some_iff.mp hchild).1]
      exact ih hinner

/-- **A change leaves every other place.** -/
theorem at_change_apart {value : Json F} : ∀ {steps other : List Step} {doc new : Json F},
    Apart steps other → doc.change (fun _ => some value) steps = some new →
      new.at other = doc.at other := by
  intro steps
  induction steps with
  | nil => intro other doc new hapart; exact absurd List.nil_prefix hapart.1
  | cons step rest ih =>
    intro other doc new hapart h
    cases other with
    | nil => exact absurd List.nil_prefix hapart.2
    | cons step' rest' =>
      rcases change_cons h with ⟨name, fields, child, inner, rfl, rfl, hchild, hinner, rfl⟩ |
        ⟨index, items, child, inner, rfl, rfl, hchild, hinner, rfl⟩
      · cases step' with
        | item index => rfl
        | field name' =>
          by_cases hname : name' = name
          · subst hname
            rcases hchild with hchild | ⟨-, rfl⟩
            · rw [Json.at, Json.at, getField_setField_self, hchild]
              exact ih hapart.tail hinner
            · exact absurd ((List.prefix_cons_inj _).mpr List.nil_prefix) hapart.1
          · rw [Json.at, Json.at, getField_setField_ne hname]
      · cases step' with
        | field name => rfl
        | item index' =>
          by_cases hindex : index' = index
          · subst hindex
            rw [Json.at, Json.at,
              List.getElem?_set_self (List.getElem?_eq_some_iff.mp hchild).1, hchild]
            exact ih hapart.tail hinner
          · rw [Json.at, Json.at, List.getElem?_set_ne (Ne.symm hindex)]

theorem locate_change_apart {value : Json F} : ∀ {steps other : List Step}
    {components : List String} {doc new : Json F}, Apart steps other →
      doc.change (fun _ => some value) steps = some new → locate components doc = some other →
        locate components new = some other := by
  intro steps
  induction steps with
  | nil => intro other components doc new hapart; exact absurd List.nil_prefix hapart.1
  | cons step rest ih =>
    intro other components doc new hapart h hlocate
    cases components with
    | nil =>
      cases hlocate
      exact absurd List.nil_prefix hapart.2
    | cons component others =>
      rcases change_cons h with ⟨name, fields, child, inner, rfl, rfl, hchild, hinner, rfl⟩ |
        ⟨index, items, child, inner, rfl, rfl, hchild, hinner, rfl⟩
      · by_cases hname : component = name
        · subst hname
          rcases locate_object hlocate with ⟨child', steps', hchild', hsteps, rfl⟩ |
            ⟨hnone, rfl, rfl⟩
          · rcases hchild with hchild | ⟨hnone, -⟩
            · rw [hchild] at hchild'
              cases hchild'
              simp only [locate, getField_setField_self]
              rw [ih hapart.tail hinner hsteps]
              rfl
            · rw [hnone] at hchild'
              cases hchild'
          · rcases hchild with hchild | ⟨-, rfl⟩
            · rw [hnone] at hchild
              cases hchild
            · exact absurd List.prefix_rfl hapart.1
        · simp only [locate, getField_setField_ne hname] at hlocate ⊢
          exact hlocate
      · obtain ⟨index', child', steps', hindex, hchild', hsteps, rfl⟩ := locate_array hlocate
        by_cases heq : index' = index
        · subst heq
          rw [hchild] at hchild'
          cases hchild'
          simp only [locate, hindex,
            List.getElem?_set_self (List.getElem?_eq_some_iff.mp hchild).1]
          rw [ih hapart.tail hinner hsteps]
          rfl
        · simp only [locate, hindex, List.getElem?_set_ne (Ne.symm heq), hchild']
          rw [hsteps]
          rfl

/-! ### Changes of what is there -/

theorem locate_of_getAt : ∀ {components : List String} {doc value : Json F},
    getAt components doc = some value →
      ∃ steps, locate components doc = some steps ∧ doc.at steps = some value := by
  intro components
  induction components with
  | nil =>
    intro doc value h
    exact ⟨[], rfl, by cases doc <;> exact h⟩
  | cons component rest ih =>
    intro doc value h
    cases doc with
    | scalar old => cases h
    | object fields =>
      rw [getAt_object] at h
      obtain ⟨child, hchild, hrest⟩ := Option.bind_eq_some_iff.mp h
      obtain ⟨steps, hsteps, hat⟩ := ih hrest
      refine ⟨.field component :: steps, ?_, ?_⟩
      · simp only [locate, hchild]
        rw [hsteps]
        rfl
      · rw [at_cons, at_field, hchild]
        exact hat
    | array items =>
      rw [getAt_array] at h
      obtain ⟨child, hitem, hrest⟩ := Option.bind_eq_some_iff.mp h
      obtain ⟨index, hindex, hchild⟩ := Option.bind_eq_some_iff.mp hitem
      obtain ⟨steps, hsteps, hat⟩ := ih hrest
      refine ⟨.item index :: steps, ?_, ?_⟩
      · simp only [locate, hindex, hchild]
        rw [hsteps]
        rfl
      · rw [at_cons, at_item, hchild]
        exact hat

/-- A path that leads to a value goes through objects and arrays alone. -/
theorem entersText_of_getAt {components : List String} {value : Json F}
    (h : getAt components doc = some value) : entersText components doc = false := by
  obtain ⟨steps, hsteps, -⟩ := locate_of_getAt h
  exact entersText_of_locate hsteps

/-- **A write turns the path to a value into a string only with what it writes**: where it writes
above that value. -/
theorem entersText_setAt : ∀ {source target : List String} {doc new v : Json F},
    appendComponent ∉ target → getAt source doc = some v → setAt w target doc = some new →
      (∀ above below, locate target doc = some above → locate source doc = some (above ++ below) →
        entersText (source.drop target.length) w = false) →
        entersText source new = false := by
  intro source
  induction source with
  | nil => intro target doc new v _ _ _ _; exact entersText_nil new
  | cons a source ih =>
    intro target doc new v happend hget hset habove
    cases target with
    | nil =>
      obtain rfl : w = new := Option.some.inj hset
      obtain ⟨steps, hsteps, -⟩ := locate_of_getAt hget
      exact habove [] steps rfl hsteps
    | cons b target =>
      have hb := List.ne_of_not_mem_cons happend
      have happend' := List.not_mem_of_not_mem_cons happend
      cases doc with
      | scalar value => cases hget
      | object fields =>
        obtain ⟨child, hchild, hget⟩ := Option.bind_eq_some_iff.mp hget
        by_cases hab : a = b
        · subst hab
          rcases setAt_object hset with ⟨other, inner, hother, hinner, rfl⟩ | ⟨hnone, -⟩
          · cases hchild.symm.trans hother
            rw [entersText_object, getField_setField_self]
            refine ih happend' hget hinner fun above below htarget hsource => ?_
            exact habove (.field a :: above) below (by simp [locate, hchild, htarget])
              (by simp [locate, hchild, hsource])
          · rw [hchild] at hnone
            cases hnone
        · have hfields : ∃ fields', new = .object fields' ∧ getField a fields' = some child := by
            rcases setAt_object hset with ⟨_, _, _, _, rfl⟩ | ⟨_, rfl⟩
            · exact ⟨_, rfl, (getField_setField_ne hab _ _).trans hchild⟩
            · exact ⟨_, rfl, (getField_append_ne hab _ _).trans hchild⟩
          obtain ⟨fields', rfl, hkept⟩ := hfields
          rw [entersText_object, hkept]
          exact entersText_of_getAt hget
      | array items =>
        rw [getAt_array] at hget
        obtain ⟨child, hfound, hget⟩ := Option.bind_eq_some_iff.mp hget
        obtain ⟨i, hi, hchild⟩ := Option.bind_eq_some_iff.mp hfound
        obtain ⟨j, hj⟩ := setAt_array_index (Ne.symm hb) hset
        have hlt := (List.getElem?_eq_some_iff.mp hchild).1
        by_cases hij : i = j
        · subst hij
          rcases setAt_item hj hset with ⟨other, inner, hother, hinner, rfl⟩ | ⟨hle, -⟩
          · cases hchild.symm.trans hother
            rw [entersText_item hi, List.getElem?_set_self hlt]
            refine ih happend' hget hinner fun above below htarget hsource => ?_
            exact habove (.item i :: above) below (by simp [locate, hj, hchild, htarget])
              (by simp [locate, hi, hchild, hsource])
          · omega
        · obtain ⟨items', rfl, hframe⟩ := setAt_item_frame hj hset
          rw [entersText_item hi, hframe i hij (.inl hlt), hchild]
          exact entersText_of_getAt hget

theorem change_of_at (value : Json F) : ∀ {components : List String} {steps : List Step}
    {doc old : Json F}, locate components doc = some steps → doc.at steps = some old →
      ∃ new, doc.change (fun _ => some value) steps = some new ∧
        locate components new = some steps := by
  intro components
  induction components with
  | nil =>
    intro steps doc old hlocate _
    cases hlocate
    exact ⟨value, by cases doc <;> rfl, rfl⟩
  | cons component rest ih =>
    intro steps doc old hlocate hat
    cases doc with
    | scalar value => cases hlocate
    | object fields =>
      rcases locate_object hlocate with ⟨child, steps', hchild, hsteps, rfl⟩ | ⟨hnone, rfl, rfl⟩
      · rw [at_cons, at_field, hchild] at hat
        obtain ⟨new, hnew, hlocated⟩ := ih hsteps hat
        refine ⟨.object (setField component new fields), ?_, ?_⟩
        · simp only [Json.change, hchild]
          rw [hnew]
          rfl
        · simp only [locate, getField_setField_self]
          rw [hlocated]
          rfl
      · rw [at_field, hnone] at hat
        cases hat
    | array items =>
      obtain ⟨index, child, steps', hindex, hchild, hsteps, rfl⟩ := locate_array hlocate
      have hlt := (List.getElem?_eq_some_iff.mp hchild).1
      rw [at_cons, at_item, hchild] at hat
      obtain ⟨new, hnew, hlocated⟩ := ih hsteps hat
      refine ⟨.array (items.set index new), ?_, ?_⟩
      · simp only [Json.change, hchild]
        rw [hnew]
        rfl
      · simp only [locate, hindex, List.getElem?_set_self hlt]
        rw [hlocated]
        rfl

theorem change_same : ∀ {steps : List Step} {doc value : Json F}, doc.at steps = some value →
    doc.change (fun _ => some value) steps = some doc := by
  intro steps
  induction steps with
  | nil =>
    intro doc value h
    cases doc <;> exact h.symm
  | cons step rest ih =>
    intro doc value h
    rw [at_cons] at h
    obtain ⟨child, hchild, hrest⟩ := Option.bind_eq_some_iff.mp h
    have hsame := ih hrest
    cases doc with
    | scalar old => cases step <;> cases hchild
    | object fields =>
      cases step with
      | item index => cases hchild
      | field name =>
        rw [at_field] at hchild
        simp only [Json.change, hchild]
        rw [hsame, Option.map_some, setField_of_get hchild]
    | array items =>
      cases step with
      | field name => cases hchild
      | item index =>
        rw [at_item] at hchild
        simp only [Json.change, hchild]
        rw [hsame, Option.map_some, set_of_get hchild]

end JsonTree
