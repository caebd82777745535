/-
JSON values as trees: the number of their nodes, and what a change at a path does to it.

How numbers are represented is a parameter.  The fields of an object are a list.
-/
import Mathlib

namespace JsonTree

/-! ### Values -/

inductive Scalar (F : Type) where
  | null
  | bool (value : Bool)
  | number (value : F)
  | string (value : String)

inductive Json (F : Type) where
  | scalar (value : Scalar F)
  | array (items : List (Json F))
  | object (fields : List (String × Json F))

variable {F : Type}

/-! ### Sizes -/

mutual

/-- How many values there are in a value, itself among them. -/
def Json.nodes : Json F → Nat
  | .scalar _ => 1
  | .array items => 1 + itemNodes items
  | .object fields => 1 + fieldNodes fields

def itemNodes : List (Json F) → Nat
  | [] => 0
  | item :: rest => item.nodes + itemNodes rest

def fieldNodes : List (String × Json F) → Nat
  | [] => 0
  | (_, value) :: rest => value.nodes + fieldNodes rest

end

/-! ### Fields -/

def getField {α : Type} (name : String) : List (String × α) → Option α
  | [] => none
  | (other, value) :: rest => if other = name then some value else getField name rest

/-- Replace the value of a field, or add the field at the end. -/
def setField {α : Type} (name : String) (new : α) : List (String × α) → List (String × α)
  | [] => [(name, new)]
  | (other, value) :: rest =>
    if other = name then (other, new) :: rest else (other, value) :: setField name new rest

/-! ### Changes at a path -/

inductive Step where
  | field (name : String)
  | item (index : Nat)

/-- Change what is at the end of a path, which may be a field that is not there yet. -/
def Json.change (f : Option (Json F) → Option (Json F)) : List Step → Json F → Option (Json F)
  | [], value => f (some value)
  | .field name :: rest, .object fields =>
    match getField name fields with
    | some value => (value.change f rest).map fun new => .object (setField name new fields)
    | none =>
      if rest = [] then (f none).map fun new => .object (setField name new fields) else none
  | .item index :: rest, .array items =>
    match items[index]? with
    | some value => (value.change f rest).map fun new => .array (items.set index new)
    | none => none
  | .field _ :: _, .scalar _ | .field _ :: _, .array _ | .item _ :: _, .scalar _
  | .item _ :: _, .object _ => none

/-! ### Fields -/

section Fields

variable {α β : Type} {name : String}

theorem getField_map (f : α → β) : ∀ fields : List (String × α),
    getField name (fields.map fun field => (field.1, f field.2)) = (getField name fields).map f := by
  intro fields
  induction fields with
  | nil => rfl
  | cons field rest ih =>
    obtain ⟨other, value⟩ := field
    show (if other = name then some (f value) else getField name (rest.map _)) =
      (if other = name then some value else getField name rest).map f
    by_cases hname : other = name
    · rw [if_pos hname, if_pos hname]
      rfl
    · rw [if_neg hname, if_neg hname]
      exact ih

theorem mem_of_getField {value : α} : ∀ {fields : List (String × α)},
    getField name fields = some value → (name, value) ∈ fields := by
  intro fields
  induction fields with
  | nil => exact fun h => (by cases h)
  | cons field rest ih =>
    obtain ⟨other, old⟩ := field
    intro h
    unfold getField at h
    by_cases hname : other = name
    · rw [if_pos hname] at h
      rw [hname, Option.some.inj h]
      exact List.mem_cons_self
    · rw [if_neg hname] at h
      exact List.mem_cons_of_mem _ (ih h)

theorem setField_of_none {new : α} : ∀ {fields : List (String × α)},
    getField name fields = none → setField name new fields = fields ++ [(name, new)] := by
  intro fields
  induction fields with
  | nil => exact fun _ => rfl
  | cons first rest ih =>
    obtain ⟨other, value⟩ := first
    intro h
    unfold getField at h
    unfold setField
    by_cases hname : other = name
    · rw [if_pos hname] at h
      cases h
    · rw [if_neg hname] at h ⊢
      rw [ih h]
      rfl

end Fields

/-! ### What a new item or field adds -/

theorem sum_map_set {α : Type} (w : α → Nat) (new : α) {old : α} : ∀ {items : List α} {index : Nat},
    items[index]? = some old →
      ((items.set index new).map w).sum + w old = (items.map w).sum + w new := by
  intro items
  induction items with
  | nil => exact fun h => (by cases h)
  | cons item rest ih =>
    intro index h
    cases index with
    | zero =>
      rw [← Option.some.inj h, List.set_cons_zero]
      simp only [List.map_cons, List.sum_cons]
      omega
    | succ index =>
      have hrest := ih h
      rw [List.set_cons_succ]
      simp only [List.map_cons, List.sum_cons]
      omega

theorem sum_map_setField {α : Type} (w : String × α → Nat) (new : α) {name : String} {old : α} :
    ∀ {fields : List (String × α)}, getField name fields = some old →
      ((setField name new fields).map w).sum + w (name, old) =
        (fields.map w).sum + w (name, new) := by
  intro fields
  induction fields with
  | nil => exact fun h => (by cases h)
  | cons field rest ih =>
    obtain ⟨other, value⟩ := field
    intro h
    unfold getField at h
    unfold setField
    by_cases hname : other = name
    · rw [if_pos hname] at h ⊢
      rw [← Option.some.inj h, hname]
      simp only [List.map_cons, List.sum_cons]
      omega
    · rw [if_neg hname] at h ⊢
      have hrest := ih h
      simp only [List.map_cons, List.sum_cons]
      omega

theorem itemNodes_eq_sum (items : List (Json F)) :
    itemNodes items = (items.map Json.nodes).sum := by
  induction items with
  | nil => rfl
  | cons item rest ih => rw [List.map_cons, List.sum_cons, ← ih]; rfl

theorem fieldNodes_eq_sum (fields : List (String × Json F)) :
    fieldNodes fields = (fields.map fun field => field.2.nodes).sum := by
  induction fields with
  | nil => rfl
  | cons field rest ih => rw [List.map_cons, List.sum_cons, ← ih]; rfl

/-! ### Numbers -/

def Scalar.mapNumber (f : F → F) : Scalar F → Scalar F
  | .number value => .number (f value)
  | .null => .null
  | .bool value => .bool value
  | .string value => .string value

mutual

def Json.mapNumber (f : F → F) : Json F → Json F
  | .scalar value => .scalar (value.mapNumber f)
  | .array items => .array (itemsMapNumber f items)
  | .object fields => .object (fieldsMapNumber f fields)

def itemsMapNumber (f : F → F) : List (Json F) → List (Json F)
  | [] => []
  | item :: rest => item.mapNumber f :: itemsMapNumber f rest

def fieldsMapNumber (f : F → F) : List (String × Json F) → List (String × Json F)
  | [] => []
  | (name, value) :: rest => (name, value.mapNumber f) :: fieldsMapNumber f rest

end

mutual

def Json.allNumbers (p : F → Bool) : Json F → Bool
  | .scalar (.number value) => p value
  | .scalar _ => true
  | .array items => itemsAllNumbers p items
  | .object fields => fieldsAllNumbers p fields

def itemsAllNumbers (p : F → Bool) : List (Json F) → Bool
  | [] => true
  | item :: rest => item.allNumbers p && itemsAllNumbers p rest

def fieldsAllNumbers (p : F → Bool) : List (String × Json F) → Bool
  | [] => true
  | (_, value) :: rest => value.allNumbers p && fieldsAllNumbers p rest

end

theorem itemsMapNumber_eq_map (f : F → F) (items : List (Json F)) :
    itemsMapNumber f items = items.map (Json.mapNumber f) := by
  induction items with
  | nil => rfl
  | cons item rest ih => rw [itemsMapNumber, ih, List.map_cons]

theorem fieldsMapNumber_eq_map (f : F → F) (fields : List (String × Json F)) :
    fieldsMapNumber f fields = fields.map fun field => (field.1, field.2.mapNumber f) := by
  induction fields with
  | nil => rfl
  | cons field rest ih => rw [fieldsMapNumber, ih, List.map_cons]

mutual

theorem Json.nodes_mapNumber (f : F → F) : ∀ value : Json F, (value.mapNumber f).nodes = value.nodes
  | .scalar _ => rfl
  | .array items => by
      unfold Json.mapNumber Json.nodes
      rw [itemNodes_mapNumber f items]
  | .object fields => by
      unfold Json.mapNumber Json.nodes
      rw [fieldNodes_mapNumber f fields]

theorem itemNodes_mapNumber (f : F → F) : ∀ items : List (Json F),
    itemNodes (itemsMapNumber f items) = itemNodes items
  | [] => rfl
  | item :: rest => by
      unfold itemsMapNumber itemNodes
      rw [Json.nodes_mapNumber f item, itemNodes_mapNumber f rest]

theorem fieldNodes_mapNumber (f : F → F) : ∀ fields : List (String × Json F),
    fieldNodes (fieldsMapNumber f fields) = fieldNodes fields
  | [] => rfl
  | (name, value) :: rest => by
      unfold fieldsMapNumber fieldNodes
      rw [Json.nodes_mapNumber f value, fieldNodes_mapNumber f rest]

end

mutual

theorem Json.mapNumber_settled {p : F → Bool} {f : F → F}
    (h : ∀ x, p x = true → f (f x) = f x ∧ p (f x) = true) : ∀ value : Json F,
      value.allNumbers p = true →
        (value.mapNumber f).mapNumber f = value.mapNumber f ∧ (value.mapNumber f).allNumbers p = true
  | .scalar (.number x), hvalue => by
      obtain ⟨hsame, hkind⟩ := h x hvalue
      exact ⟨congrArg (fun x => Json.scalar (.number x)) hsame, hkind⟩
  | .scalar .null, _ | .scalar (.bool _), _ | .scalar (.string _), _ => ⟨rfl, rfl⟩
  | .array items, hvalue => by
      obtain ⟨hsame, hkind⟩ := itemsMapNumber_settled h items hvalue
      exact ⟨congrArg Json.array hsame, hkind⟩
  | .object fields, hvalue => by
      obtain ⟨hsame, hkind⟩ := fieldsMapNumber_settled h fields hvalue
      exact ⟨congrArg Json.object hsame, hkind⟩

theorem itemsMapNumber_settled {p : F → Bool} {f : F → F}
    (h : ∀ x, p x = true → f (f x) = f x ∧ p (f x) = true) : ∀ items : List (Json F),
      itemsAllNumbers p items = true →
        itemsMapNumber f (itemsMapNumber f items) = itemsMapNumber f items ∧
          itemsAllNumbers p (itemsMapNumber f items) = true
  | [], _ => ⟨rfl, rfl⟩
  | item :: rest, hitems => by
      unfold itemsAllNumbers at hitems
      rw [Bool.and_eq_true] at hitems
      obtain ⟨hitem, hitemKind⟩ := Json.mapNumber_settled h item hitems.1
      obtain ⟨hrest, hrestKind⟩ := itemsMapNumber_settled h rest hitems.2
      simp only [itemsMapNumber, itemsAllNumbers, hitem, hrest, hitemKind, hrestKind, Bool.and_self,
        and_self]

theorem fieldsMapNumber_settled {p : F → Bool} {f : F → F}
    (h : ∀ x, p x = true → f (f x) = f x ∧ p (f x) = true) : ∀ fields : List (String × Json F),
      fieldsAllNumbers p fields = true →
        fieldsMapNumber f (fieldsMapNumber f fields) = fieldsMapNumber f fields ∧
          fieldsAllNumbers p (fieldsMapNumber f fields) = true
  | [], _ => ⟨rfl, rfl⟩
  | (name, value) :: rest, hfields => by
      unfold fieldsAllNumbers at hfields
      rw [Bool.and_eq_true] at hfields
      obtain ⟨hvalue, hvalueKind⟩ := Json.mapNumber_settled h value hfields.1
      obtain ⟨hrest, hrestKind⟩ := fieldsMapNumber_settled h rest hfields.2
      simp only [fieldsMapNumber, fieldsAllNumbers, hvalue, hrest, hvalueKind, hrestKind,
        Bool.and_self, and_self]

end

end JsonTree
