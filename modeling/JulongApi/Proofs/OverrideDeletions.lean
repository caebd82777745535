/-
Deletions one after another, by the paths that were collected before the first of them.

A deletion below a field or an item leaves the places of the others.  An item that is deleted itself
moves those behind it, so that the next index is that of another item: what should be removed is
removed exactly where no array holds two matched items.
-/
import JulongApi.Proofs.OverrideMatch

namespace JulongApi.Override

open JsonTree

variable {F : Type}

/-! ### The deletions, one after another -/

def deleteAll (paths : List (List String)) (doc : Json F) : Json F :=
  paths.foldl (fun doc components => deleteAt components doc) doc

theorem collect_pre : ∀ (segments : List String) (doc : Json F) (pre : List String),
    collectWildcardPaths segments doc pre
      = (collectWildcardPaths segments doc []).map (pre ++ ·) := by
  intro segments
  induction segments with
  | nil => intro doc pre; simp [collect_nil]
  | cons segment rest ih =>
    intro doc pre
    have happend : ∀ (component : String) (child : Json F),
        collectWildcardPaths rest child (pre ++ [component])
          = (collectWildcardPaths rest child ([] ++ [component])).map (pre ++ ·) := by
      intro component child
      rw [ih child (pre ++ [component]), ih child ([] ++ [component]), List.map_map]
      refine List.map_congr_left fun path _ => ?_
      simp
    by_cases hempty : trimSpace segment = ""
    · rw [collect_of_empty hempty, collect_of_empty hempty]
      rfl
    · cases doc with
      | scalar value =>
        rw [collect_scalar, collect_scalar]
        rfl
      | object fields =>
        by_cases hstar : trimSpace segment = "*"
        · rw [collect_fields hstar, collect_fields hstar, List.map_flatMap]
          refine List.flatMap_congr fun name _ => ?_
          cases getField name fields with
          | none => rfl
          | some child => exact happend name child
        · rw [collect_field hempty hstar, collect_field hempty hstar]
          by_cases hrest : rest = []
          · simp [hrest]
          · simp only [hrest, if_false]
            cases getField (trimSpace segment) fields with
            | none => rfl
            | some child => exact happend (trimSpace segment) child
      | array items =>
        by_cases hstar : trimSpace segment = "*"
        · rw [collect_items hstar, collect_items hstar, List.map_flatMap]
          refine List.flatMap_congr fun index _ => ?_
          cases items[index]? with
          | none => rfl
          | some child => exact happend (toString index) child
        · rw [collect_item hempty hstar, collect_item hempty hstar]
          cases atoi (trimSpace segment) with
          | none => rfl
          | some index =>
            by_cases hrange : index < 0 ∨ (items.length : Int) ≤ index
            · simp [hrange]
            · by_cases hrest : rest = []
              · simp [hrange, hrest]
              · simp only [hrange, hrest, if_false]
                cases items[index.toNat]? with
                | none => rfl
                | some child => exact happend (trimSpace segment) child

theorem collect_child (rest : List String) (child : Json F) (component : String) :
    collectWildcardPaths rest child ([] ++ [component])
      = (collectWildcardPaths rest child []).map (component :: ·) := by
  rw [collect_pre rest child ([] ++ [component])]
  rfl

variable {doc : Json F} {fields : List (String × Json F)} {items : List (Json F)}

theorem ne_nil_of_collected {segments : List String} (hsegments : segments ≠ []) :
    ∀ path ∈ collectWildcardPaths segments doc [], path ≠ [] := by
  intro path hpath
  obtain ⟨components, steps, rfl, hmatched⟩ := (collects _ _ _ _).mp hpath
  intro hnil
  have hlength := hmatched.length_eq
  rw [hnil] at hlength
  exact hsegments (List.length_eq_zero_iff.mp (by rw [← hlength.2, ← hlength.1]; rfl))

variable {name component : String} {index : Nat} {step : Step}

theorem setField_setField {first second : Json F} :
    ∀ fields : List (String × Json F),
      setField name second (setField name first fields) = setField name second fields := by
  intro fields
  induction fields with
  | nil => simp [setField]
  | cons field rest ih =>
    obtain ⟨other, value⟩ := field
    by_cases hname : other = name
    · simp [setField, hname]
    · simp [setField, hname, ih]

theorem deleteAll_field : ∀ {paths : List (List String)} {child : Json F}
    {now : List (String × Json F)}, (∀ path ∈ paths, path ≠ []) → getField name now = some child →
      deleteAll (paths.map (name :: ·)) (.object now)
        = .object (setField name (deleteAll paths child) now) := by
  intro paths
  induction paths with
  | nil =>
    intro child now _ hchild
    rw [deleteAll, List.map_nil, List.foldl_nil, deleteAll, List.foldl_nil,
      setField_of_get hchild]
  | cons path rest ih =>
    intro child now hpaths hchild
    obtain ⟨hpath, hrest⟩ := List.forall_mem_cons.mp hpaths
    have hfirst : deleteAll ((path :: rest).map (name :: ·)) (.object now)
        = deleteAll (rest.map (name :: ·)) (deleteAt (name :: path) (.object now)) := rfl
    rw [hfirst, deleteAt_field hpath hchild, ih hrest (getField_setField_self _ _),
      setField_setField]
    rfl

theorem deleteAll_item (hindex : itemIndex component = some index) :
    ∀ {paths : List (List String)} {child : Json F} {now : List (Json F)},
      (∀ path ∈ paths, path ≠ []) → now[index]? = some child →
        deleteAll (paths.map (component :: ·)) (.array now)
          = .array (now.set index (deleteAll paths child)) := by
  have hnotEnd : component ≠ appendComponent := by
    rintro rfl
    rw [itemIndex_append] at hindex
    cases hindex
  intro paths
  induction paths with
  | nil =>
    intro child now _ hchild
    rw [deleteAll, List.map_nil, List.foldl_nil, deleteAll, List.foldl_nil, set_of_get hchild]
  | cons path rest ih =>
    intro child now hpaths hchild
    obtain ⟨hpath, hrest⟩ := List.forall_mem_cons.mp hpaths
    have hlt := (List.getElem?_eq_some_iff.mp hchild).1
    have hfirst : deleteAll ((path :: rest).map (component :: ·)) (.array now)
        = deleteAll (rest.map (component :: ·)) (deleteAt (component :: path) (.array now)) := rfl
    have hdelete : deleteIndex component now.length = some index := by
      rw [deleteIndex_of_ne hnotEnd, hindex]
    rw [hfirst, deleteAt_item hpath hdelete hchild, ih hrest (List.getElem?_set_self hlt),
      List.set_set]
    rfl

theorem deleteAll_fields {rest : List String} (hrest : rest ≠ []) :
    ∀ {keys : List String} {now : List (String × Json F)},
      keys.Nodup → (now.map (·.1)).Nodup →
      (∀ key ∈ keys, ∃ child, getField key fields = some child ∧ getField key now = some child) →
        deleteAll (keys.flatMap fun key =>
            match getField key fields with
            | some child => collectWildcardPaths rest child ([] ++ [key])
            | none => []) (.object now)
          = .object (now.map fun field =>
              if field.1 ∈ keys
                then (field.1, deleteAll (collectWildcardPaths rest field.2 []) field.2)
                else field) := by
  intro keys
  induction keys with
  | nil => intro now _ _ _; simp [deleteAll]
  | cons key keys ih =>
    intro now hkeys hnow hfound
    obtain ⟨hkey, hkeys⟩ := List.nodup_cons.mp hkeys
    obtain ⟨⟨child, hfield, hchild⟩, hfound⟩ := List.forall_mem_cons.mp hfound
    have hset := setField_eq_map (deleteAll (collectWildcardPaths rest child []) child) hnow hchild
    rw [List.flatMap_cons, deleteAll, List.foldl_append, ← deleteAll, ← deleteAll]
    simp only [hfield]
    rw [collect_child, deleteAll_field (ne_nil_of_collected hrest) hchild,
      ih hkeys ?_ ?_, hset, List.map_map]
    · refine congrArg Json.object (List.map_congr_left fun field hmem => ?_)
      by_cases hname : field.1 = key
      · have hvalue := getField_of_mem hnow hmem
        rw [hname, hchild] at hvalue
        cases hvalue
        simp [hname, hkey]
      · simp [hname]
    · rw [hset, List.map_map]
      refine (congrArg List.Nodup (List.map_congr_left fun field _ => ?_)).mpr hnow
      by_cases hname : field.1 = key
      · simp [hname]
      · simp [hname]
    · intro other hother
      have hne : other ≠ key := by
        rintro rfl
        exact hkey hother
      obtain ⟨child', hfield', hchild'⟩ := hfound other hother
      exact ⟨child', hfield', by rw [getField_setField_ne hne, hchild']⟩

theorem deleteAll_items {rest : List String} (hrest : rest ≠ []) :
    ∀ {indices : List Nat} {now : List (Json F)}, indices.Nodup →
      (∀ index ∈ indices, ∃ child, items[index]? = some child ∧ now[index]? = some child) →
        deleteAll (indices.flatMap fun index =>
            match items[index]? with
            | some child => collectWildcardPaths rest child ([] ++ [toString index])
            | none => []) (.array now)
          = .array (now.mapIdx fun index item =>
              if index ∈ indices then deleteAll (collectWildcardPaths rest item []) item
              else item) := by
  intro indices
  induction indices with
  | nil =>
    intro now _ _
    simp only [deleteAll, List.flatMap_nil, List.foldl_nil]
    refine congrArg Json.array (List.ext_getElem? fun i => ?_)
    simp
  | cons index indices ih =>
    intro now hindices hfound
    obtain ⟨hindex, hindices⟩ := List.nodup_cons.mp hindices
    obtain ⟨⟨child, hitem, hchild⟩, hfound⟩ := List.forall_mem_cons.mp hfound
    have hlt := (List.getElem?_eq_some_iff.mp hchild).1
    rw [List.flatMap_cons, deleteAll, List.foldl_append, ← deleteAll, ← deleteAll]
    simp only [hitem]
    rw [collect_child, deleteAll_item (itemIndex_toString index) (ne_nil_of_collected hrest)
      hchild, ih hindices ?_]
    · refine congrArg Json.array (List.ext_getElem? fun i => ?_)
      rw [List.getElem?_mapIdx, List.getElem?_mapIdx]
      by_cases heq : i = index
      · subst heq
        rw [List.getElem?_set_self hlt, hchild]
        simp [hindex]
      · rw [List.getElem?_set_ne (Ne.symm heq)]
        simp [heq]
    · intro i hi
      have hne : index ≠ i := by
        rintro rfl
        exact hindex hi
      obtain ⟨child', hitem', hchild'⟩ := hfound i hi
      exact ⟨child', hitem', by rw [List.getElem?_set_ne hne, hchild']⟩

theorem nodup_sortedKeys (fields : List (String × Json F)) : (sortedKeys fields).Nodup :=
  (List.perm_insertionSort _ _).nodup_iff.mpr (List.nodup_dedup _)

theorem eachMatched_of_none {segment : String} (h : ∀ step, segmentMatches segment step = false)
    (f : Json F → Json F) (doc : Json F) : eachMatched segment f doc = doc := by
  cases doc with
  | scalar value => rfl
  | array items =>
    refine congrArg Json.array (List.ext_getElem? fun i => ?_)
    simp [h]
  | object fields => simp [eachMatched, h]

theorem segmentMatches_of_empty {segment : String} (hempty : trimSpace segment = "") (step : Step) :
    segmentMatches segment step = false := by
  cases step with
  | field name => simp [segmentMatches, hempty]
  | item index => simp [segmentMatches, hempty, atoi_empty]

theorem segmentMatches_star {segment : String} (hstar : trimSpace segment = "*") (step : Step) :
    segmentMatches segment step = true := by
  cases step with
  | field name => simp [segmentMatches, hstar]
  | item index => simp [segmentMatches, hstar]

theorem segmentMatches_field {segment : String} (hempty : trimSpace segment ≠ "")
    (hstar : trimSpace segment ≠ "*") (name : String) :
    segmentMatches segment (.field name) = decide (name = trimSpace segment) := by
  simp [segmentMatches, hempty, hstar, eq_comm]

theorem segmentMatches_item {segment : String} (hstar : trimSpace segment ≠ "*") (index : Nat) :
    segmentMatches segment (.item index)
      = decide (atoi (trimSpace segment) = some (index : Int)) := by
  simp [segmentMatches, hstar]

/-- The components of the matched places stand for their steps. -/
def PlainSteps (segments : List String) (doc : Json F) : Prop :=
  ∀ components steps, Matched segments doc components steps →
    List.Forall₂ PlainStep components steps

section Step

variable {segment : String} {rest : List String}

theorem deleteAll_name (hrest : rest ≠ []) (hempty : trimSpace segment ≠ "")
    (hstar : trimSpace segment ≠ "*") (hnodup : (fields.map (·.1)).Nodup) :
    deleteAll (collectWildcardPaths (segment :: rest) (.object fields) []) (.object fields)
      = eachMatched segment (fun child => deleteAll (collectWildcardPaths rest child []) child)
          (.object fields) := by
  simp only [collect_field hempty hstar, hrest, if_false, eachMatched,
    segmentMatches_field hempty hstar, decide_eq_true_eq]
  cases hchild : getField (trimSpace segment) fields with
  | none =>
    have hother : ∀ field ∈ fields, field.1 ≠ trimSpace segment := by
      intro field hmem hname
      have hvalue := getField_of_mem hnodup hmem
      rw [hname, hchild] at hvalue
      cases hvalue
    rw [deleteAll, List.foldl_nil]
    refine congrArg Json.object ?_
    rw [List.map_congr_left fun field hmem => if_neg (hother field hmem), List.map_id']
  | some child =>
    dsimp only
    rw [collect_child, deleteAll_field (ne_nil_of_collected hrest) hchild,
      setField_eq_map _ hnodup hchild]
    refine congrArg Json.object (List.map_congr_left fun field hmem => ?_)
    by_cases hname : field.1 = trimSpace segment
    · have hvalue := getField_of_mem hnodup hmem
      rw [hname, hchild] at hvalue
      rw [if_pos hname, if_pos hname, Option.some.inj hvalue]
    · rw [if_neg hname, if_neg hname]

theorem deleteAll_index (hrest : rest ≠ []) (hempty : trimSpace segment ≠ "")
    (hstar : trimSpace segment ≠ "*") (hplain : PlainSteps (segment :: rest) (.array items)) :
    deleteAll (collectWildcardPaths (segment :: rest) (.array items) []) (.array items)
      = eachMatched segment (fun child => deleteAll (collectWildcardPaths rest child []) child)
          (.array items) := by
  have hmatches := segmentMatches_item hstar
  cases hatoi : atoi (trimSpace segment) with
  | none =>
    have hnone : collectWildcardPaths (segment :: rest) (.array items) [] = [] := by
      simp [collect_item hempty hstar, hatoi]
    rw [hnone]
    refine congrArg Json.array (List.ext_getElem? fun i => ?_)
    simp [hmatches, hatoi]
  | some index =>
    by_cases hrange : index < 0 ∨ (items.length : Int) ≤ index
    · have hnone : collectWildcardPaths (segment :: rest) (.array items) [] = [] := by
        simp [collect_item hempty hstar, hatoi, hrange]
      rw [hnone]
      refine congrArg Json.array (List.ext_getElem? fun i => ?_)
      rw [List.getElem?_mapIdx]
      cases hitem : items[i]? with
      | none => rfl
      | some item =>
        have hlt := (List.getElem?_eq_some_iff.mp hitem).1
        have hne : index ≠ (i : Int) := by omega
        simp [hmatches, hatoi, hne]
    · obtain ⟨n, rfl⟩ : ∃ n : Nat, index = n := ⟨index.toNat, by omega⟩
      have hlt : n < items.length := by omega
      have hchild := List.getElem?_eq_getElem hlt
      have hcollect : collectWildcardPaths (segment :: rest) (.array items) []
          = (collectWildcardPaths rest items[n] []).map (trimSpace segment :: ·) := by
        rw [← collect_child]
        simp [collect_item hempty hstar, hatoi, hlt, hrest]
      have hset : deleteAll (collectWildcardPaths (segment :: rest) (.array items) [])
          (.array items) = .array (items.set n
            (deleteAll (collectWildcardPaths rest items[n] []) items[n])) := by
        rw [hcollect]
        cases hpaths : collectWildcardPaths rest items[n] [] with
        | nil => simp [deleteAll]
        | cons path paths =>
          have hmem : path ∈ collectWildcardPaths rest items[n] [] := by
            rw [hpaths]
            exact List.mem_cons_self
          obtain ⟨components, steps, -, hmatched⟩ := (collects _ _ _ _).mp hmem
          have hforall := hplain _ _ (.item hatoi hchild hmatched)
          cases hforall with
          | cons hindex _ =>
            have hindex : itemIndex (trimSpace segment) = some n := hindex
            rw [← hpaths, deleteAll_item hindex (ne_nil_of_collected hrest) hchild]
      rw [hset]
      refine congrArg Json.array (List.ext_getElem? fun i => ?_)
      rw [List.getElem?_mapIdx]
      by_cases heq : i = n
      · subst heq
        rw [List.getElem?_set_self hlt, hchild]
        simp [hmatches, hatoi]
      · have hne : (n : Int) ≠ (i : Int) := by omega
        rw [List.getElem?_set_ne (Ne.symm heq)]
        simp [hmatches, hatoi, hne]

theorem deleteAll_step (hrest : rest ≠ []) (hnames : doc.namesOnce = true)
    (hplain : PlainSteps (segment :: rest) doc) :
    deleteAll (collectWildcardPaths (segment :: rest) doc []) doc
      = eachMatched segment (fun child => deleteAll (collectWildcardPaths rest child []) child)
          doc := by
  by_cases hempty : trimSpace segment = ""
  · rw [collect_of_empty hempty, eachMatched_of_none (segmentMatches_of_empty hempty)]
    rfl
  · cases doc with
    | scalar value =>
      rw [collect_scalar]
      rfl
    | object fields =>
      obtain ⟨hnodup, -⟩ := namesOnce_object hnames
      by_cases hstar : trimSpace segment = "*"
      · have hkeys : ∀ key ∈ sortedKeys fields, ∃ child,
            getField key fields = some child ∧ getField key fields = some child := by
          intro key hkey
          obtain ⟨child, hchild⟩ := mem_sortedKeys.mp hkey
          exact ⟨child, hchild, hchild⟩
        rw [collect_fields hstar]
        refine (deleteAll_fields hrest (nodup_sortedKeys fields) hnodup hkeys).trans ?_
        refine congrArg Json.object (List.map_congr_left fun field hmem => ?_)
        have hkey := mem_sortedKeys.mpr ⟨_, getField_of_mem hnodup hmem⟩
        rw [if_pos hkey, if_pos (segmentMatches_star hstar _)]
      · exact deleteAll_name hrest hempty hstar hnodup
    | array items =>
      by_cases hstar : trimSpace segment = "*"
      · have hindices : ∀ index ∈ List.range items.length, ∃ child,
            items[index]? = some child ∧ items[index]? = some child := by
          intro index hindex
          have hitem := List.getElem?_eq_getElem (List.mem_range.mp hindex)
          exact ⟨_, hitem, hitem⟩
        rw [collect_items hstar]
        refine (deleteAll_items hrest List.nodup_range hindices).trans ?_
        refine congrArg Json.array (List.ext_getElem? fun i => ?_)
        rw [List.getElem?_mapIdx, List.getElem?_mapIdx]
        cases hitem : items[i]? with
        | none => rfl
        | some item =>
          have hlt := (List.getElem?_eq_some_iff.mp hitem).1
          rw [Option.map_some, Option.map_some, if_pos (List.mem_range.mpr hlt),
            if_pos (segmentMatches_star hstar _)]
      · exact deleteAll_index hrest hempty hstar hplain

end Step

/-! ### The last segment -/

section Last

variable {segment : String}

theorem match_single (step : Step) :
    pathMatches [segment] [step] = segmentMatches segment step := by
  rw [pathMatches, pathMatches, Bool.and_true]

theorem match_single_deeper (step : Step) {steps : List Step} (h : steps ≠ []) :
    pathMatches [segment] (step :: steps) = false := by
  rw [pathMatches, not_match_of_nil h, Bool.and_false]

theorem MatchedAt.single {parent : List Step} (h : MatchedAt [segment] doc (parent ++ [step])) :
    parent = [] ∧ segmentMatches segment step = true ∧ (doc.at [step]).isSome = true := by
  have hlength := length_of_match h.isMatch
  obtain rfl : parent = [] := by simpa using hlength
  exact ⟨rfl, by rw [← match_single]; exact h.isMatch, h.there⟩

theorem deleteAll_keys : ∀ {keys : List String} {now : List (String × Json F)},
    (now.map (·.1)).Nodup →
      deleteAll (keys.map fun key => [key]) (.object now)
        = .object (now.filter fun field => decide (field.1 ∉ keys)) := by
  intro keys
  induction keys with
  | nil => intro now _; simp [deleteAll]
  | cons key keys ih =>
    intro now hnow
    have hfirst : deleteAll ((key :: keys).map fun key => [key]) (.object now)
        = deleteAll (keys.map fun key => [key]) (deleteAt [key] (.object now)) := rfl
    have hsublist := (List.filter_sublist (l := now)
      (p := fun field => decide (field.1 ≠ key))).map (·.1)
    rw [hfirst, deleteAt_object, removeField_eq_filter hnow, ih (hsublist.nodup hnow),
      List.filter_filter]
    refine congrArg Json.object (List.filter_congr fun field _ => ?_)
    simp [Bool.and_comm]

theorem deleteAll_object (hnodup : (fields.map (·.1)).Nodup) :
    deleteAll (collectWildcardPaths [segment] (.object fields) []) (.object fields)
      = .object (fields.filter fun field => !segmentMatches segment (.field field.1)) := by
  by_cases hempty : trimSpace segment = ""
  · rw [collect_of_empty hempty]
    simp [deleteAll, segmentMatches_of_empty hempty]
  · by_cases hstar : trimSpace segment = "*"
    · have hpaths : collectWildcardPaths [segment] (.object fields) []
          = (sortedKeys fields).map fun key => [key] := by
        rw [collect_fields hstar, List.map_eq_flatMap]
        refine List.flatMap_congr fun key hkey => ?_
        obtain ⟨child, hchild⟩ := mem_sortedKeys.mp hkey
        rw [hchild]
        rfl
      rw [hpaths, deleteAll_keys hnodup]
      refine congrArg Json.object (List.filter_congr fun field hmem => ?_)
      have hkey := mem_sortedKeys.mpr ⟨_, getField_of_mem hnodup hmem⟩
      rw [segmentMatches_star hstar]
      simpa using hkey
    · have hpaths : collectWildcardPaths [segment] (.object fields) [] = [[trimSpace segment]] := by
        simp [collect_field hempty hstar]
      rw [hpaths]
      show deleteAt [trimSpace segment] (.object fields) = _
      rw [deleteAt_object, removeField_eq_filter hnodup]
      refine congrArg Json.object (List.filter_congr fun field _ => ?_)
      rw [segmentMatches_field hempty hstar, decide_not]

theorem without_object (fields : List (String × Json F)) :
    (Json.object fields).without (pathMatches [segment])
      = .object (fields.filter fun field => !segmentMatches segment (.field field.1)) := by
  rw [Json.without, fieldsWithout_eq]
  simp only [match_single]
  rw [List.map_congr_left fun field _ => ?_, List.map_id']
  rw [Json.without_of_none field.2 fun steps hsteps => match_single_deeper _ hsteps]

theorem deleteAt_index (hindex : itemIndex component = some index) (items : List (Json F)) :
    deleteAt [component] (.array items) = .array (items.eraseIdx index) := by
  refine deleteAt_erase ?_
  rw [deleteIndex_of_ne, hindex]
  rintro rfl
  rw [itemIndex_append] at hindex
  cases hindex

theorem deleteAll_keeps_first : ∀ (indices : List Nat) (first : Json F) (rest : List (Json F)),
    ∃ rest', deleteAll (indices.map fun index => [toString (index + 1)]) (.array (first :: rest))
      = .array (first :: rest') := by
  intro indices
  induction indices with
  | nil => intro first rest; exact ⟨rest, rfl⟩
  | cons index indices ih =>
    intro first rest
    have hfirst : deleteAll ((index :: indices).map fun index => [toString (index + 1)])
          (.array (first :: rest))
        = deleteAll (indices.map fun index => [toString (index + 1)])
          (deleteAt [toString (index + 1)] (.array (first :: rest))) := rfl
    rw [hfirst, deleteAt_index (itemIndex_toString (index + 1)), List.eraseIdx_cons_succ]
    exact ih first (rest.eraseIdx index)

theorem deleteAll_all_iff (items : List (Json F)) :
    deleteAll ((List.range items.length).map fun index => [toString index]) (.array items)
      = .array [] ↔ items.length ≤ 1 := by
  cases items with
  | nil => exact ⟨fun _ => Nat.zero_le 1, fun _ => rfl⟩
  | cons first rest =>
    have hpaths : (List.range (first :: rest).length).map (fun index => [toString index])
        = [toString 0] :: (List.range rest.length).map fun index => [toString (index + 1)] := by
      rw [List.length_cons, List.range_succ_eq_map, List.map_cons, List.map_map]
      rfl
    have hdelete : deleteAll ([toString 0] :: (List.range rest.length).map
          fun index => [toString (index + 1)]) (.array (first :: rest))
        = deleteAll ((List.range rest.length).map fun index => [toString (index + 1)])
          (.array rest) := by
      show deleteAll _ (deleteAt [toString 0] (.array (first :: rest))) = _
      rw [deleteAt_index (itemIndex_toString 0), List.eraseIdx_cons_zero]
    rw [hpaths, hdelete]
    cases rest with
    | nil => exact ⟨fun _ => Nat.le_refl 1, fun _ => rfl⟩
    | cons second rest =>
      obtain ⟨left, hleft⟩ :=
        deleteAll_keeps_first (List.range (second :: rest).length) second rest
      rw [hleft]
      simp

theorem deleteAll_item_last (hempty : trimSpace segment ≠ "") (hstar : trimSpace segment ≠ "*")
    (hplain : PlainSteps [segment] (.array items)) :
    deleteAll (collectWildcardPaths [segment] (.array items) []) (.array items)
      = (Json.array items).without (pathMatches [segment]) := by
  have hmatches : ∀ index, pathMatches [segment] [.item index]
      = decide (atoi (trimSpace segment) = some (index : Int)) := by
    intro index
    rw [match_single, segmentMatches_item hstar]
  rw [Json.without]
  by_cases hindex : ∃ n : Nat, atoi (trimSpace segment) = some (n : Int)
  · obtain ⟨n, hatoi⟩ := hindex
    have hone : ∀ index, pathMatches [segment] [.item index] = decide (index = n) := by
      intro index
      rw [hmatches, hatoi]
      exact decide_eq_decide.mpr
        ⟨fun h => (Int.ofNat.inj (Option.some.inj h)).symm, fun h => by rw [h]⟩
    rw [itemsWithout_one hone (fun index steps h => match_single_deeper _ h) 0 items (Nat.zero_le n),
      Nat.sub_zero]
    by_cases hlt : n < items.length
    · have hpaths : collectWildcardPaths [segment] (.array items) [] = [[trimSpace segment]] := by
        simp [collect_item hempty hstar, hatoi, hlt]
      have hforall := hplain _ _ (.item hatoi (List.getElem?_eq_getElem hlt) (.root _))
      cases hforall with
      | cons hindex _ =>
        have hindex : itemIndex (trimSpace segment) = some n := hindex
        rw [hpaths]
        exact deleteAt_index hindex items
    · have hpaths : collectWildcardPaths [segment] (.array items) [] = [] := by
        simp [collect_item hempty hstar, hatoi]
        omega
      rw [hpaths, List.eraseIdx_of_length_le (by omega)]
      rfl
  · have hkept : ∀ index, pathMatches [segment] [.item index] = false := by
      intro index
      rw [hmatches, decide_eq_false_iff_not]
      exact fun h => hindex ⟨index, h⟩
    have hpaths : collectWildcardPaths [segment] (.array items) [] = [] := by
      cases hatoi : atoi (trimSpace segment) with
      | none => simp [collect_item hempty hstar, hatoi]
      | some index =>
        have hnegative : index < 0 := by
          by_contra hle
          exact hindex ⟨index.toNat, by rw [hatoi, Int.toNat_of_nonneg (by omega)]⟩
        simp [collect_item hempty hstar, hatoi, hnegative]
    rw [hpaths, itemsWithout_of_kept hkept]
    refine congrArg Json.array (List.ext_getElem? fun i => ?_)
    rw [List.getElem?_mapIdx]
    cases items[i]? with
    | none => rfl
    | some item =>
      rw [Option.map_some, Json.without_of_none item fun steps h => match_single_deeper _ h]

theorem deleteAll_last_iff (hnames : doc.namesOnce = true) (hplain : PlainSteps [segment] doc) :
    deleteAll (collectWildcardPaths [segment] doc []) doc = doc.without (pathMatches [segment]) ↔
      Unshifted [segment] doc := by
  cases doc with
  | scalar value =>
    rw [collect_scalar, Json.without]
    refine ⟨fun _ parent i j hi _ => ?_, fun _ => rfl⟩
    exact absurd hi.single.2.2 (by simp [Json.at])
  | object fields =>
    rw [deleteAll_object (namesOnce_object hnames).1, without_object]
    refine ⟨fun _ parent i j hi _ => ?_, fun _ => rfl⟩
    exact absurd hi.single.2.2 (by simp [Json.at])
  | array items =>
    have hmatched : ∀ i, MatchedAt [segment] (.array items) ([] ++ [.item i]) ↔
        segmentMatches segment (.item i) = true ∧ i < items.length := by
      intro i
      constructor
      · intro h
        refine ⟨h.single.2.1, ?_⟩
        simpa [Json.at] using h.single.2.2
      · rintro ⟨hmatch, hlt⟩
        exact ⟨by rw [List.nil_append, match_single, hmatch], by simp [hlt]⟩
    by_cases hempty : trimSpace segment = ""
    · rw [collect_of_empty hempty]
      have hnone := segmentMatches_of_empty hempty
      rw [Json.without_of_none (.array items) fun steps hsteps => ?_]
      · refine ⟨fun _ parent i j hi _ => ?_, fun _ => rfl⟩
        exact absurd hi.single.2.1 (by simp [hnone])
      · cases steps with
        | nil => exact absurd rfl hsteps
        | cons step steps => rw [pathMatches, hnone, Bool.false_and]
    · by_cases hstar : trimSpace segment = "*"
      · have hpaths : collectWildcardPaths [segment] (.array items) []
            = (List.range items.length).map fun index => [toString index] := by
          rw [collect_items hstar, List.map_eq_flatMap]
          refine List.flatMap_congr fun index hindex => ?_
          rw [List.getElem?_eq_getElem (List.mem_range.mp hindex)]
          rfl
        have hremoved : ∀ index, pathMatches [segment] [.item index] = true := by
          intro index
          rw [match_single, segmentMatches_star hstar]
        rw [hpaths, Json.without, itemsWithout_of_removed hremoved, deleteAll_all_iff]
        constructor
        · intro hlength parent i j hi hj
          obtain rfl := hi.single.1
          have := ((hmatched i).mp hi).2
          have := ((hmatched j).mp hj).2
          omega
        · intro h
          by_contra hlength
          have := h [] 0 1 ((hmatched 0).mpr ⟨segmentMatches_star hstar _, by omega⟩)
            ((hmatched 1).mpr ⟨segmentMatches_star hstar _, by omega⟩)
          omega
      · have hmatches := segmentMatches_item hstar
        have hunshifted : Unshifted [segment] (.array items) := by
          intro parent i j hi hj
          have hi := hi.single.2.1
          have hj := hj.single.2.1
          rw [hmatches, decide_eq_true_eq] at hi hj
          rw [hi] at hj
          exact Int.ofNat.inj (Option.some.inj hj)
        exact ⟨fun _ => hunshifted, fun _ => deleteAll_item_last hempty hstar hplain⟩

end Last

theorem child_kept {segment : String} {rest : List String} {child : Json F}
    (hnames : doc.namesOnce = true) (hplain : PlainSteps (segment :: rest) doc)
    (hstep : segmentMatches segment step = true) (hchild : doc.at [step] = some child) :
    child.namesOnce = true ∧ PlainSteps rest child := by
  cases step with
  | field name =>
    cases doc with
    | scalar value => cases hchild
    | array items => cases hchild
    | object fields =>
      have hfield : getField name fields = some child := by simpa [Json.at] using hchild
      refine ⟨(namesOnce_object hnames).2 _ (mem_of_getField hfield), ?_⟩
      intro components steps hmatched
      simp only [segmentMatches, Bool.and_eq_true, Bool.or_eq_true,
        decide_eq_true_eq] at hstep
      by_cases hstar : trimSpace segment = "*"
      · cases hplain _ _ (.anyField hstar hfield hmatched) with
        | cons _ hforall => exact hforall
      · obtain ⟨hempty, hcontra | rfl⟩ := hstep
        · exact absurd hcontra hstar
        · cases hplain _ _ (.field hempty hstar hfield hmatched) with
          | cons _ hforall => exact hforall
  | item index =>
    cases doc with
    | scalar value => cases hchild
    | object fields => cases hchild
    | array items =>
      have hitem : items[index]? = some child := by simpa [Json.at] using hchild
      refine ⟨namesOnce_array hnames _ (List.mem_of_getElem? hitem), ?_⟩
      intro components steps hmatched
      simp only [segmentMatches, Bool.or_eq_true, decide_eq_true_eq] at hstep
      rcases hstep with hstar | hindex
      · cases hplain _ _ (.anyItem hstar hitem hmatched) with
        | cons _ hforall => exact hforall
      · cases hplain _ _ (.item hindex hitem hmatched) with
        | cons _ hforall => exact hforall

/-- **The deletions remove what is matched exactly where no array holds two matched items.** -/
theorem deleteAll_eq_iff : ∀ {segments : List String} {doc : Json F}, doc.namesOnce = true →
    PlainSteps segments doc →
      (deleteAll (collectWildcardPaths segments doc []) doc = doc.without (pathMatches segments) ↔
        Unshifted segments doc) := by
  intro segments
  induction segments with
  | nil =>
    intro doc _ _
    have hkept := Json.without_of_none doc fun steps hsteps => not_match_of_nil hsteps
    rw [collect_nil, hkept]
    constructor
    · intro _ parent i j hi _
      exact absurd hi.isMatch (by rw [not_match_of_nil (by simp)]; decide)
    · intro _
      show deleteAt [] doc = doc
      simp only [deleteAt]
  | cons segment rest ih =>
    intro doc hnames hplain
    by_cases hrest : rest = []
    · subst hrest
      exact deleteAll_last_iff hnames hplain
    · rw [deleteAll_step hrest hnames hplain, without_cons hrest, eachMatched_eq_iff hnames,
        unshifted_cons hrest]
      refine forall_congr' fun step => forall_congr' fun child => ?_
      refine imp_congr_right fun hstep => imp_congr_right fun hchild => ?_
      obtain ⟨hchildNames, hchildPlain⟩ := child_kept hnames hplain hstep hchild
      exact ih hchildNames hchildPlain

end JulongApi.Override
