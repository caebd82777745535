/-
JSON values without what is at some places.

The places are told by a predicate on the steps from the root, which itself stays.  The fields and
items that stay keep their order; those behind a removed item move up.
-/
import JulongApi.Lib.JsonPath

namespace JsonTree

variable {F : Type}

mutual

/-- The value without what is at the places of a predicate. -/
def Json.without : (List Step → Bool) → Json F → Json F
  | _, .scalar value => .scalar value
  | p, .array items => .array (itemsWithout p 0 items)
  | p, .object fields => .object (fieldsWithout p fields)

def itemsWithout : (List Step → Bool) → Nat → List (Json F) → List (Json F)
  | _, _, [] => []
  | p, index, item :: rest =>
    if p [.item index] then itemsWithout p (index + 1) rest
    else item.without (fun steps => p (.item index :: steps)) :: itemsWithout p (index + 1) rest

def fieldsWithout : (List Step → Bool) → List (String × Json F) → List (String × Json F)
  | _, [] => []
  | p, (name, value) :: rest =>
    if p [.field name] then fieldsWithout p rest
    else (name, value.without fun steps => p (.field name :: steps)) :: fieldsWithout p rest

end

mutual

def Json.namesOnce : Json F → Bool
  | .scalar _ => true
  | .array items => itemsNamesOnce items
  | .object fields => decide ((fields.map (·.1)).Nodup) && fieldsNamesOnce fields

def itemsNamesOnce : List (Json F) → Bool
  | [] => true
  | item :: rest => item.namesOnce && itemsNamesOnce rest

def fieldsNamesOnce : List (String × Json F) → Bool
  | [] => true
  | (_, value) :: rest => value.namesOnce && fieldsNamesOnce rest

end

mutual

/-- The value without the values of a kind below it, and what is inside of them. -/
def Json.pruned (q : Json F → Bool) : Json F → Json F
  | .scalar value => .scalar value
  | .array items => .array (itemsPruned q items)
  | .object fields => .object (fieldsPruned q fields)

def itemsPruned (q : Json F → Bool) : List (Json F) → List (Json F)
  | [] => []
  | item :: rest => if q item then itemsPruned q rest else item.pruned q :: itemsPruned q rest

def fieldsPruned (q : Json F → Bool) : List (String × Json F) → List (String × Json F)
  | [] => []
  | (name, value) :: rest =>
    if q value then fieldsPruned q rest else (name, value.pruned q) :: fieldsPruned q rest

end

/-! ### What is removed nowhere -/

mutual

theorem Json.without_congr : ∀ {p q : List Step → Bool} (value : Json F),
    (∀ steps, steps ≠ [] → p steps = q steps) → value.without p = value.without q
  | _, _, .scalar _, _ => by simp only [Json.without]
  | _, _, .array items, h => by
      unfold Json.without
      rw [itemsWithout_congr 0 items h]
  | _, _, .object fields, h => by
      unfold Json.without
      rw [fieldsWithout_congr fields h]

theorem itemsWithout_congr : ∀ {p q : List Step → Bool} (index : Nat) (items : List (Json F)),
    (∀ steps, steps ≠ [] → p steps = q steps) → itemsWithout p index items = itemsWithout q index items
  | _, _, _, [], _ => by simp only [itemsWithout]
  | p, q, index, item :: rest, h => by
      unfold itemsWithout
      rw [h [.item index] (by simp), itemsWithout_congr (index + 1) rest h,
        Json.without_congr item fun steps _ => h (.item index :: steps) (by simp)]

theorem fieldsWithout_congr : ∀ {p q : List Step → Bool} (fields : List (String × Json F)),
    (∀ steps, steps ≠ [] → p steps = q steps) → fieldsWithout p fields = fieldsWithout q fields
  | _, _, [], _ => by simp only [fieldsWithout]
  | p, q, (name, value) :: rest, h => by
      unfold fieldsWithout
      rw [h [.field name] (by simp), fieldsWithout_congr rest h,
        Json.without_congr value fun steps _ => h (.field name :: steps) (by simp)]

end

mutual

theorem Json.without_false : ∀ value : Json F, value.without (fun _ => false) = value
  | .scalar _ => by simp only [Json.without]
  | .array items => by
      unfold Json.without
      rw [itemsWithout_false 0 items]
  | .object fields => by
      unfold Json.without
      rw [fieldsWithout_false fields]

theorem itemsWithout_false : ∀ (index : Nat) (items : List (Json F)),
    itemsWithout (fun _ => false) index items = items
  | _, [] => by simp only [itemsWithout]
  | index, item :: rest => by
      unfold itemsWithout
      rw [if_neg (by simp), itemsWithout_false (index + 1) rest, Json.without_false item]

theorem fieldsWithout_false : ∀ fields : List (String × Json F),
    fieldsWithout (fun _ => false) fields = fields
  | [] => by simp only [fieldsWithout]
  | (name, value) :: rest => by
      unfold fieldsWithout
      rw [if_neg (by simp), fieldsWithout_false rest, Json.without_false value]

end

variable {p : List Step → Bool} {items : List (Json F)} {fields : List (String × Json F)}

theorem Json.without_of_none (value : Json F) (h : ∀ steps, steps ≠ [] → p steps = false) :
    value.without p = value := by
  rw [Json.without_congr value h, Json.without_false]

/-! ### The fields and items that stay -/

theorem fieldsWithout_eq (p : List Step → Bool) : ∀ fields : List (String × Json F),
    fieldsWithout p fields
      = (fields.filter fun field => !p [.field field.1]).map fun field =>
          (field.1, field.2.without fun steps => p (.field field.1 :: steps)) := by
  intro fields
  induction fields with
  | nil => simp only [fieldsWithout, List.filter_nil, List.map_nil]
  | cons field rest ih =>
    obtain ⟨name, value⟩ := field
    unfold fieldsWithout
    by_cases hp : p [.field name] = true
    · rw [if_pos hp, ih]
      simp [hp]
    · rw [if_neg hp, ih]
      simp [hp]

theorem itemsWithout_of_kept (h : ∀ index, p [.item index] = false) :
    ∀ (index : Nat) (items : List (Json F)), itemsWithout p index items
      = items.mapIdx fun i item => item.without fun steps => p (.item (index + i) :: steps) := by
  intro index items
  induction items generalizing index with
  | nil => simp only [itemsWithout, List.mapIdx_nil]
  | cons item rest ih =>
    unfold itemsWithout
    rw [if_neg (by simp [h]), ih, List.mapIdx_cons]
    simp only [Nat.add_zero, Nat.add_assoc, Nat.add_comm 1]

theorem itemsWithout_of_removed (h : ∀ index, p [.item index] = true) :
    ∀ (index : Nat) (items : List (Json F)), itemsWithout p index items = [] := by
  intro index items
  induction items generalizing index with
  | nil => simp only [itemsWithout]
  | cons item rest ih =>
    unfold itemsWithout
    rw [if_pos (h index), ih]

theorem itemsWithout_one {removed : Nat}
    (hone : ∀ index, p [.item index] = decide (index = removed))
    (hinner : ∀ index steps, steps ≠ [] → p (.item index :: steps) = false) :
    ∀ (index : Nat) (items : List (Json F)), index ≤ removed →
      itemsWithout p index items = items.eraseIdx (removed - index) := by
  have hitem : ∀ (index : Nat) (item : Json F),
      item.without (fun steps => p (.item index :: steps)) = item :=
    fun index item => Json.without_of_none item (hinner index)
  have hbehind : ∀ (items : List (Json F)) (index : Nat), removed < index →
      itemsWithout p index items = items := by
    intro items
    induction items with
    | nil => intro index _; simp only [itemsWithout]
    | cons item rest ih =>
      intro index hlt
      unfold itemsWithout
      rw [if_neg (by simp [hone]; omega), ih _ (by omega), hitem]
  intro index items
  induction items generalizing index with
  | nil => intro _; simp only [itemsWithout, List.eraseIdx_nil]
  | cons item rest ih =>
    intro hle
    unfold itemsWithout
    by_cases heq : index = removed
    · rw [if_pos (by simp [hone, heq]), hbehind rest _ (by omega), heq, Nat.sub_self,
        List.eraseIdx_cons_zero]
    · have hstep : removed - index = (removed - (index + 1)) + 1 := by omega
      rw [if_neg (by simp [hone, heq]), hitem, ih _ (by omega), hstep, List.eraseIdx_cons_succ]

/-! ### Names that occur once -/

theorem itemsNamesOnce_iff :
    itemsNamesOnce items = true ↔ ∀ item ∈ items, item.namesOnce = true := by
  induction items with
  | nil => simp [itemsNamesOnce]
  | cons item rest ih => simp [itemsNamesOnce, ih]

theorem fieldsNamesOnce_iff :
    fieldsNamesOnce fields = true ↔ ∀ field ∈ fields, field.2.namesOnce = true := by
  induction fields with
  | nil => simp [fieldsNamesOnce]
  | cons field rest ih =>
    obtain ⟨name, value⟩ := field
    simp [fieldsNamesOnce, ih]

theorem namesOnce_array (h : (Json.array items).namesOnce = true) :
    ∀ item ∈ items, item.namesOnce = true := by
  unfold Json.namesOnce at h
  exact itemsNamesOnce_iff.mp h

theorem namesOnce_object (h : (Json.object fields).namesOnce = true) :
    (fields.map (·.1)).Nodup ∧ ∀ field ∈ fields, field.2.namesOnce = true := by
  unfold Json.namesOnce at h
  rw [Bool.and_eq_true, decide_eq_true_eq] at h
  exact ⟨h.1, fieldsNamesOnce_iff.mp h.2⟩

section Once

variable {α : Type} {name : String}

theorem getField_of_mem {value : α} : ∀ {fields : List (String × α)},
    (fields.map (·.1)).Nodup → (name, value) ∈ fields → getField name fields = some value := by
  intro fields
  induction fields with
  | nil => intro _ h; cases h
  | cons field rest ih =>
    obtain ⟨other, old⟩ := field
    intro hnodup h
    obtain ⟨hother, hnodup⟩ := List.nodup_cons.mp hnodup
    unfold getField
    rcases List.mem_cons.mp h with heq | hrest
    · cases heq
      rw [if_pos rfl]
    · have hne : other ≠ name := by
        rintro rfl
        exact hother (List.mem_map.mpr ⟨_, hrest, rfl⟩)
      rw [if_neg hne, ih hnodup hrest]

theorem setField_eq_map (new : α) {old : α} : ∀ {fields : List (String × α)},
    (fields.map (·.1)).Nodup → getField name fields = some old →
      setField name new fields
        = fields.map fun field => if field.1 = name then (field.1, new) else field := by
  intro fields
  induction fields with
  | nil => intro _ h; cases h
  | cons field rest ih =>
    obtain ⟨other, value⟩ := field
    intro hnodup h
    obtain ⟨hother, hnodup⟩ := List.nodup_cons.mp hnodup
    unfold getField at h
    unfold setField
    by_cases hname : other = name
    · have hrest : ∀ field ∈ rest,
          (if field.1 = name then (field.1, new) else field) = field := by
        intro field hmem
        have hne : field.1 ≠ name := by
          rintro rfl
          exact hother (List.mem_map.mpr ⟨field, hmem, hname.symm⟩)
        rw [if_neg hne]
      rw [if_pos hname, List.map_cons, if_pos hname, List.map_congr_left hrest, List.map_id']
    · rw [if_neg hname] at h ⊢
      rw [List.map_cons, if_neg hname, ih hnodup h]

theorem removeField_eq_filter : ∀ {fields : List (String × α)}, (fields.map (·.1)).Nodup →
    removeField name fields = fields.filter fun field => decide (field.1 ≠ name) := by
  intro fields
  induction fields with
  | nil => intro _; rfl
  | cons field rest ih =>
    obtain ⟨other, value⟩ := field
    intro hnodup
    obtain ⟨hother, hnodup⟩ := List.nodup_cons.mp hnodup
    unfold removeField
    by_cases hname : other = name
    · have hrest : ∀ field ∈ rest, decide (field.1 ≠ name) = true := by
        intro field hmem
        rw [decide_eq_true_eq]
        rintro rfl
        exact hother (List.mem_map.mpr ⟨field, hmem, hname.symm⟩)
      rw [if_pos hname, List.filter_cons_of_neg (by simpa using hname),
        List.filter_eq_self.mpr hrest]
    · rw [if_neg hname, List.filter_cons_of_pos (by simpa using hname), ih hnodup]

end Once

/-! ### Without the values of a kind -/

section Prune

variable {q : Json F → Bool}

theorem itemsPruned_eq (items : List (Json F)) :
    itemsPruned q items = (items.filter fun item => !q item).map (Json.pruned q) := by
  induction items with
  | nil => rfl
  | cons item rest ih =>
    unfold itemsPruned
    by_cases hitem : q item = true
    · rw [if_pos hitem, ih, List.filter_cons_of_neg (by simp [hitem])]
    · rw [if_neg hitem, ih, List.filter_cons_of_pos (by simp [hitem]), List.map_cons]

theorem fieldsPruned_eq (fields : List (String × Json F)) :
    fieldsPruned q fields
      = (fields.filter fun field => !q field.2).map fun field =>
          (field.1, field.2.pruned q) := by
  induction fields with
  | nil => rfl
  | cons field rest ih =>
    obtain ⟨name, value⟩ := field
    unfold fieldsPruned
    by_cases hvalue : q value = true
    · rw [if_pos hvalue, ih, List.filter_cons_of_neg (by simp [hvalue])]
    · rw [if_neg hvalue, ih, List.filter_cons_of_pos (by simp [hvalue]), List.map_cons]

def Json.holds (q : Json F → Bool) (value : Json F) (steps : List Step) : Bool :=
  (value.at steps).any q

variable {value : Json F}

theorem holds_field {name : String} (h : getField name fields = some value) (steps : List Step) :
    (Json.object fields).holds q (.field name :: steps) = value.holds q steps := by
  simp [Json.holds, Json.at, h]

theorem holds_item {index : Nat} (h : items[index]? = some value) (steps : List Step) :
    (Json.array items).holds q (.item index :: steps) = value.holds q steps := by
  simp [Json.holds, Json.at, h]

mutual

theorem Json.pruned_eq_without : ∀ value : Json F, value.namesOnce = true →
    value.pruned q = value.without (value.holds q)
  | .scalar _, _ => by simp only [Json.pruned, Json.without]
  | .array items, h => by
      unfold Json.pruned Json.without
      rw [itemsPruned_eq_without 0 items (namesOnce_array h) fun index item hitem steps =>
        holds_item (by simpa using hitem) steps]
  | .object fields, h => by
      obtain ⟨hnodup, hfields⟩ := namesOnce_object h
      unfold Json.pruned Json.without
      rw [fieldsPruned_eq_without fields hfields fun field hmem steps =>
        holds_field (getField_of_mem hnodup hmem) steps]

theorem itemsPruned_eq_without {p : List Step → Bool} : ∀ (start : Nat) (items : List (Json F)),
    (∀ item ∈ items, item.namesOnce = true) →
      (∀ index item, items[index]? = some item → ∀ steps,
        p (.item (start + index) :: steps) = item.holds q steps) →
        itemsPruned q items = itemsWithout p start items
  | _, [], _, _ => by simp only [itemsPruned, itemsWithout]
  | start, item :: rest, hnames, h => by
      obtain ⟨hitem, hrest⟩ := List.forall_mem_cons.mp hnames
      have hfirst : ∀ steps, p (.item start :: steps) = item.holds q steps := h 0 item rfl
      have hkind : p [.item start] = q item := by
        rw [hfirst]
        simp [Json.holds, Json.at]
      have hbehind : ∀ index other, rest[index]? = some other → ∀ steps,
          p (.item (start + 1 + index) :: steps) = other.holds q steps := by
        intro index other hother steps
        rw [Nat.add_assoc, Nat.add_comm 1]
        exact h (index + 1) other hother steps
      unfold itemsPruned itemsWithout
      rw [hkind, itemsPruned_eq_without (start + 1) rest hrest hbehind,
        Json.pruned_eq_without item hitem, Json.without_congr item fun steps _ => hfirst steps]

theorem fieldsPruned_eq_without {p : List Step → Bool} : ∀ fields : List (String × Json F),
    (∀ field ∈ fields, field.2.namesOnce = true) →
      (∀ field ∈ fields, ∀ steps, p (.field field.1 :: steps) = field.2.holds q steps) →
        fieldsPruned q fields = fieldsWithout p fields
  | [], _, _ => by simp only [fieldsPruned, fieldsWithout]
  | (name, value) :: rest, hnames, h => by
      obtain ⟨hvalue, hrest⟩ := List.forall_mem_cons.mp hnames
      obtain ⟨hfirst, hbehind⟩ := List.forall_mem_cons.mp h
      have hkind : p [.field name] = q value := by
        rw [hfirst]
        simp [Json.holds, Json.at]
      unfold fieldsPruned fieldsWithout
      rw [hkind, fieldsPruned_eq_without rest hrest hbehind,
        Json.pruned_eq_without value hvalue, Json.without_congr value fun steps _ => hfirst steps]

end

theorem at_pruned {child : Json F} {step : Step} (h : (value.pruned q).at [step] = some child) :
    ∃ old, child = old.pruned q ∧ q old = false ∧
      ((∃ items, value = .array items ∧ old ∈ items) ∨
        ∃ fields name, value = .object fields ∧ (name, old) ∈ fields) := by
  cases value with
  | scalar value =>
    rw [Json.pruned] at h
    cases step <;> cases h
  | array items =>
    rw [Json.pruned, itemsPruned_eq] at h
    cases step with
    | field name => cases h
    | item index =>
      rw [at_item] at h
      have hitem := List.mem_of_getElem? h
      obtain ⟨old, hold, rfl⟩ := List.mem_map.mp hitem
      rw [List.mem_filter] at hold
      exact ⟨old, rfl, by simpa using hold.2, .inl ⟨items, rfl, hold.1⟩⟩
  | object fields =>
    rw [Json.pruned, fieldsPruned_eq] at h
    cases step with
    | item index => cases h
    | field name =>
      rw [at_field] at h
      have hfield := mem_of_getField h
      obtain ⟨field, hold, heq⟩ := List.mem_map.mp hfield
      rw [List.mem_filter] at hold
      cases heq
      exact ⟨field.2, rfl, by simpa using hold.2, .inr ⟨fields, field.1, rfl, hold.1⟩⟩

/-- What is asked of a value is asked of all that is in it. -/
structure Hereditary (ok : Json F → Prop) : Prop where
  items : ∀ items, ok (.array items) → ∀ item ∈ items, ok item
  fields : ∀ fields, ok (.object fields) → ∀ field ∈ fields, ok field.2

theorem Hereditary.at {ok : Json F → Prop} (hok : Hereditary ok) : ∀ {steps : List Step}
    {value inner : Json F}, ok value → value.at steps = some inner → ok inner := by
  intro steps
  induction steps with
  | nil =>
    intro value inner hvalue h
    cases value <;> exact Option.some.inj h ▸ hvalue
  | cons step rest ih =>
    intro value inner hvalue h
    rw [at_cons] at h
    obtain ⟨child, hchild, hinner⟩ := Option.bind_eq_some_iff.mp h
    refine ih ?_ hinner
    cases value with
    | scalar value => cases step <;> cases hchild
    | array items =>
      cases step with
      | field name => cases hchild
      | item index =>
        rw [at_item] at hchild
        exact hok.items items hvalue child (List.mem_of_getElem? hchild)
    | object fields =>
      cases step with
      | item index => cases hchild
      | field name =>
        rw [at_field] at hchild
        exact hok.fields fields hvalue _ (mem_of_getField hchild)

theorem namesOnce_hereditary : Hereditary fun value : Json F => value.namesOnce = true where
  items := fun _ h => namesOnce_array h
  fields := fun _ h => (namesOnce_object h).2

/-- What is kept does not become of the kind. -/
def StaysKept (q : Json F → Bool) (ok : Json F → Prop) : Prop :=
  ∀ value, ok value → q value = false → q (value.pruned q) = false

/-- **Nothing of the kind is left below.** -/
theorem not_holds_pruned {ok : Json F → Prop} (hok : Hereditary ok) (hkept : StaysKept q ok) :
    ∀ (steps : List Step) (value : Json F) (step : Step), ok value →
      (value.pruned q).holds q (step :: steps) = false := by
  intro steps
  induction steps with
  | nil =>
    intro value step hvalue
    unfold Json.holds
    cases hchild : (value.pruned q).at [step] with
    | none => rfl
    | some child =>
      obtain ⟨old, rfl, hold, hplace⟩ := at_pruned hchild
      refine hkept old ?_ hold
      rcases hplace with ⟨items, rfl, hmem⟩ | ⟨fields, name, rfl, hmem⟩
      · exact hok.items items hvalue old hmem
      · exact hok.fields fields hvalue _ hmem
  | cons next rest ih =>
    intro value step hvalue
    unfold Json.holds
    rw [at_cons]
    cases hchild : (value.pruned q).at [step] with
    | none => rfl
    | some child =>
      obtain ⟨old, rfl, -, hplace⟩ := at_pruned hchild
      refine ih old next ?_
      rcases hplace with ⟨items, rfl, hmem⟩ | ⟨fields, name, rfl, hmem⟩
      · exact hok.items items hvalue old hmem
      · exact hok.fields fields hvalue _ hmem

mutual

theorem Json.pruned_pruned {ok : Json F → Prop} (hok : Hereditary ok) (hkept : StaysKept q ok) :
    ∀ value : Json F, ok value →
    (value.pruned q).pruned q = value.pruned q
  | .scalar _, _ => by simp only [Json.pruned]
  | .array items, h => by
      simp only [Json.pruned]
      rw [itemsPruned_pruned hok hkept items (hok.items items h)]
  | .object fields, h => by
      simp only [Json.pruned]
      rw [fieldsPruned_pruned hok hkept fields (hok.fields fields h)]

theorem itemsPruned_pruned {ok : Json F → Prop} (hok : Hereditary ok) (hkept : StaysKept q ok) :
    ∀ items : List (Json F), (∀ item ∈ items, ok item) →
    itemsPruned q (itemsPruned q items) = itemsPruned q items
  | [], _ => by simp only [itemsPruned]
  | item :: rest, h => by
      obtain ⟨hitem, hrest⟩ := List.forall_mem_cons.mp h
      have hagain := itemsPruned_pruned hok hkept rest hrest
      rw [itemsPruned]
      by_cases hq : q item = true
      · rw [if_pos hq, hagain]
      · rw [if_neg hq, itemsPruned, hkept item hitem (by simpa using hq), if_neg (by simp), hagain,
          Json.pruned_pruned hok hkept item hitem]

theorem fieldsPruned_pruned {ok : Json F → Prop} (hok : Hereditary ok) (hkept : StaysKept q ok) :
    ∀ fields : List (String × Json F),
    (∀ field ∈ fields, ok field.2) →
      fieldsPruned q (fieldsPruned q fields) = fieldsPruned q fields
  | [], _ => by simp only [fieldsPruned]
  | (name, value) :: rest, h => by
      obtain ⟨hvalue, hrest⟩ := List.forall_mem_cons.mp h
      have hagain := fieldsPruned_pruned hok hkept rest hrest
      rw [fieldsPruned]
      by_cases hq : q value = true
      · rw [if_pos hq, hagain]
      · rw [if_neg hq, fieldsPruned, hkept value hvalue (by simpa using hq), if_neg (by simp),
          hagain, Json.pruned_pruned hok hkept value hvalue]

end

/-! ### Pruning and numbers -/

mutual

theorem Json.mapNumber_pruned (f : F → F) (hq : ∀ value : Json F, q (value.mapNumber f) = q value) :
    ∀ value : Json F, (value.mapNumber f).pruned q = (value.pruned q).mapNumber f
  | .scalar _ => by simp only [Json.mapNumber, Json.pruned]
  | .array items => by
      simp only [Json.mapNumber, Json.pruned]
      rw [itemsMapNumber_pruned f hq items]
  | .object fields => by
      simp only [Json.mapNumber, Json.pruned]
      rw [fieldsMapNumber_pruned f hq fields]

theorem itemsMapNumber_pruned (f : F → F) (hq : ∀ value : Json F, q (value.mapNumber f) = q value) :
    ∀ items : List (Json F),
      itemsPruned q (itemsMapNumber f items) = itemsMapNumber f (itemsPruned q items)
  | [] => by simp only [itemsMapNumber, itemsPruned]
  | item :: rest => by
      have hrest := itemsMapNumber_pruned f hq rest
      rw [itemsMapNumber, itemsPruned, itemsPruned, hq item]
      by_cases hitem : q item = true
      · rw [if_pos hitem, if_pos hitem, hrest]
      · rw [if_neg hitem, if_neg hitem, hrest, Json.mapNumber_pruned f hq item, itemsMapNumber]

theorem fieldsMapNumber_pruned (f : F → F)
    (hq : ∀ value : Json F, q (value.mapNumber f) = q value) :
    ∀ fields : List (String × Json F),
      fieldsPruned q (fieldsMapNumber f fields) = fieldsMapNumber f (fieldsPruned q fields)
  | [] => by simp only [fieldsMapNumber, fieldsPruned]
  | (name, value) :: rest => by
      have hrest := fieldsMapNumber_pruned f hq rest
      rw [fieldsMapNumber, fieldsPruned, fieldsPruned, hq value]
      by_cases hvalue : q value = true
      · rw [if_pos hvalue, if_pos hvalue, hrest]
      · rw [if_neg hvalue, if_neg hvalue, hrest, Json.mapNumber_pruned f hq value, fieldsMapNumber]

end

mutual

theorem Json.allNumbers_pruned (p : F → Bool) : ∀ value : Json F, value.allNumbers p = true →
    (value.pruned q).allNumbers p = true
  | .scalar _, h => h
  | .array items, h => by
      simp only [Json.allNumbers, Json.pruned] at h ⊢
      exact itemsAllNumbers_pruned p items h
  | .object fields, h => by
      simp only [Json.allNumbers, Json.pruned] at h ⊢
      exact fieldsAllNumbers_pruned p fields h

theorem itemsAllNumbers_pruned (p : F → Bool) : ∀ items : List (Json F),
    itemsAllNumbers p items = true → itemsAllNumbers p (itemsPruned q items) = true
  | [], h => h
  | item :: rest, h => by
      rw [itemsAllNumbers, Bool.and_eq_true] at h
      have hrest := itemsAllNumbers_pruned p rest h.2
      rw [itemsPruned]
      by_cases hitem : q item = true
      · rw [if_pos hitem]
        exact hrest
      · rw [if_neg hitem, itemsAllNumbers, Json.allNumbers_pruned p item h.1, hrest]
        rfl

theorem fieldsAllNumbers_pruned (p : F → Bool) : ∀ fields : List (String × Json F),
    fieldsAllNumbers p fields = true → fieldsAllNumbers p (fieldsPruned q fields) = true
  | [], h => h
  | (name, value) :: rest, h => by
      rw [fieldsAllNumbers, Bool.and_eq_true] at h
      have hrest := fieldsAllNumbers_pruned p rest h.2
      rw [fieldsPruned]
      by_cases hvalue : q value = true
      · rw [if_pos hvalue]
        exact hrest
      · rw [if_neg hvalue, fieldsAllNumbers, Json.allNumbers_pruned p value h.1, hrest]
        rfl

end

end Prune

end JsonTree
