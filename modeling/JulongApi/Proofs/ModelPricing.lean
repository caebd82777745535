/-
A change of prices is committed only on the values that its client has seen, and touches no other
model.

`modelPricingValues_replaceModelPricing` says what one change does to the values of its model and of
the others; the keys of plugin expressions are taken apart again by `split_key`.  `applyChanges_ok`
carries this over the changes of a call, `read_writeMaps` over the store, and `run_unnamed` over the
calls of other clients.
-/
import JulongApi.Lib.Except
import JulongApi.ModelPricing

namespace JulongApi.ModelPricing

/-! ### The keys of plugin expressions -/

section Keys

variable {p model name key : String}

theorem cut_go (m : List Char) : ∀ {cs : List Char} (before : List Char), ':' ∉ cs →
    cut.go "::" before (cs ++ ':' :: ':' :: m) =
      some (String.ofList (before.reverse ++ cs), String.ofList m) := by
  intro cs
  induction cs with
  | nil =>
    intro before _
    rw [List.nil_append, cut.go, if_pos (by rfl), List.append_nil]
    rfl
  | cons c rest ih =>
    intro before hnot
    rw [List.mem_cons, not_or] at hnot
    have hapart : ("::".toList.isPrefixOf (c :: (rest ++ ':' :: ':' :: m))) = false := by
      show ((':' == c) && _) = false
      rw [beq_false_of_ne hnot.1, Bool.false_and]
    rw [List.cons_append, cut.go, if_neg (by rw [hapart]; simp), ih (c :: before) hnot.2,
      List.reverse_cons, List.append_assoc]
    rfl

theorem of_cut_go {a b : String} : ∀ {rest before : List Char},
    cut.go "::" before rest = some (a, b) →
      before.reverse ++ rest = a.toList ++ ':' :: ':' :: b.toList := by
  intro rest
  induction rest with
  | nil =>
    intro before h
    cases h
  | cons c rest ih =>
    intro before h
    rw [cut.go] at h
    by_cases hprefix : ("::".toList.isPrefixOf (c :: rest)) = true
    · rw [if_pos hprefix] at h
      obtain ⟨tail, htail⟩ := List.isPrefixOf_iff_prefix.mp hprefix
      obtain ⟨ha, hb⟩ := Prod.mk.inj (Option.some.inj h)
      have hrest : c :: rest = ':' :: ':' :: tail := htail.symm
      rw [← ha, ← hb, String.toList_ofList, String.toList_ofList, hrest]
      rfl
    · rw [if_neg hprefix] at h
      have hrec := ih h
      rw [List.reverse_cons, List.append_assoc] at hrec
      exact hrec

theorem colon_not_mem (h : validPluginKey p = true) : ':' ∉ p.toList := by
  unfold validPluginKey at h
  rw [Bool.and_eq_true] at h
  have hchars := h.2
  cases hp : p.toList with
  | nil => simp
  | cons first rest =>
    rw [hp] at hchars
    dsimp only at hchars
    rw [Bool.and_eq_true, List.all_eq_true] at hchars
    intro hmem
    obtain rfl | hrest := List.mem_cons.mp hmem
    · exact absurd hchars.1 (by decide)
    · exact absurd (hchars.2 ':' hrest) (by decide)

theorem toList_key (p model : String) :
    (pluginBillingExprKey p model).toList = p.toList ++ ':' :: ':' :: model.toList := by
  unfold pluginBillingExprKey
  rw [String.toList_append, String.toList_append, List.append_assoc]
  rfl

theorem split_key (hvalid : validPluginKey p = true) (hmodel : trimSpace model ≠ "") :
    splitPluginBillingExprKey (pluginBillingExprKey p model) = some (p, model) := by
  have hcut : cut (pluginBillingExprKey p model) "::" = some (p, model) := by
    unfold cut
    rw [toList_key, cut_go _ [] (colon_not_mem hvalid), List.reverse_nil, List.nil_append,
      String.ofList_toList, String.ofList_toList]
  unfold splitPluginBillingExprKey
  rw [hcut]
  dsimp only
  rw [if_neg (by simp [hvalid, hmodel])]

theorem of_split (h : splitPluginBillingExprKey key = some (p, model)) :
    key = pluginBillingExprKey p model ∧ validPluginKey p = true ∧ trimSpace model ≠ "" := by
  unfold splitPluginBillingExprKey at h
  cases hcut : cut key "::" with
  | none =>
    rw [hcut] at h
    cases h
  | some parts =>
    obtain ⟨a, b⟩ := parts
    rw [hcut] at h
    obtain ⟨hbad, ⟨⟩⟩ := Option.ite_none_left_eq_some.mp h
    rw [not_or, Bool.not_eq_false] at hbad
    have hlist := of_cut_go hcut
    rw [← toList_key] at hlist
    exact ⟨String.toList_inj.mp hlist, hbad⟩

end Keys

/-! ### The values of a model -/

section Values

variable {values values' : PricingMaps} {name key p : String} {entries : Object Value}

theorem get_foldl_pricingField : ∀ {keys : List String} {result : PricingValues},
    (keys.foldl (fun result key =>
      match pricingField (values key) key name with
      | some field => result.set key field
      | none => result) result).get key =
      if key ∈ keys then (pricingField (values key) key name).or (result.get key)
      else result.get key := by
  intro keys
  induction keys with
  | nil => exact fun {_} => rfl
  | cons first rest ih =>
    intro result
    rw [List.foldl_cons, ih]
    by_cases hfirst : key = first
    · subst hfirst
      cases pricingField (values key) key name <;> simp
    · have hget : (match pricingField (values first) first name with
          | some field => result.set first field
          | none => result).get key = result.get key := by
        cases pricingField (values first) first name <;> simp [hfirst]
      rw [hget]
      simp [hfirst]

theorem get_modelPricingValues :
    (modelPricingValues values name).get key =
      if key ∈ modelPricingOptionKeys then pricingField (values key) key name else none := by
  have hfold := @get_foldl_pricingField values name key modelPricingOptionKeys .empty
  rw [SortedMap.get_empty, Option.or_none] at hfold
  exact hfold

theorem modelPricingValues_congr (h : ∀ key ∈ modelPricingOptionKeys, values' key = values key) :
    modelPricingValues values' name = modelPricingValues values name := by
  refine SortedMap.ext_get fun key => ?_
  rw [get_modelPricingValues, get_modelPricingValues]
  by_cases hkey : key ∈ modelPricingOptionKeys
  · rw [h key hkey]
  · rw [if_neg hkey, if_neg hkey]

theorem get_pluginVariants :
    (pluginVariants entries name).get p =
      if validPluginKey p = true ∧ trimSpace name ≠ "" then
        entries.get (pluginBillingExprKey p name)
      else none := by
  obtain ⟨variants, hvariants, hmem⟩ : ∃ variants,
      pluginVariants entries name = SortedMap.empty.setAll variants ∧
        ∀ expression, (p, expression) ∈ variants ↔
          (validPluginKey p = true ∧ trimSpace name ≠ "") ∧
            entries.get (pluginBillingExprKey p name) = some expression := by
    refine ⟨_, rfl, fun expression => ?_⟩
    rw [List.mem_filterMap]
    constructor
    · rintro ⟨⟨variant, own⟩, hentry, hsome⟩
      dsimp only at hsome
      cases hsplit : splitPluginBillingExprKey variant with
      | none =>
        rw [hsplit] at hsome
        cases hsome
      | some parts =>
        obtain ⟨plugin, model⟩ := parts
        rw [hsplit] at hsome
        obtain ⟨hmodel, ⟨⟩⟩ := Option.ite_none_right_eq_some.mp hsome
        obtain ⟨rfl, hvalid⟩ := of_split hsplit
        rw [← hmodel]
        exact ⟨hvalid, SortedMap.mem_entries_iff.mp hentry⟩
    · rintro ⟨⟨hvalid, hname⟩, hget⟩
      refine ⟨(pluginBillingExprKey p name, expression), SortedMap.mem_entries_iff.mpr hget, ?_⟩
      dsimp only
      rw [split_key hvalid hname]
      exact if_pos rfl
  rw [hvariants]
  by_cases hvalid : validPluginKey p = true ∧ trimSpace name ≠ ""
  · rw [if_pos hvalid]
    cases hget : entries.get (pluginBillingExprKey p name) with
    | none =>
      refine (SortedMap.get_setAll_of_not_mem fun expression h => ?_).trans SortedMap.get_empty
      have hsome := ((hmem expression).mp h).2
      rw [hget] at hsome
      cases hsome
    | some expression =>
      refine SortedMap.get_setAll_of_mem ((hmem expression).mpr ⟨hvalid, hget⟩) fun other h => ?_
      have hsome := ((hmem other).mp h).2
      rw [hget] at hsome
      exact (Option.some.inj hsome).symm
  · rw [if_neg hvalid]
    refine (SortedMap.get_setAll_of_not_mem fun expression h => ?_).trans SortedMap.get_empty
    exact hvalid ((hmem expression).mp h).1

end Values

/-! ### Drafts -/

/-- A draft of option fields, with a group of valid keys for the plugins and nothing else. -/
structure PricingValues.Valid (draft : PricingValues) : Prop where
  option : ∀ {key field}, draft.get key = some field → key ∈ modelPricingOptionKeys
  plain : ∀ {key field}, draft.get key = some field → key ≠ pluginBillingExprOption →
    ∃ value, field = .plain value
  group : ∀ {field}, draft.get pluginBillingExprOption = some field →
    ∃ variants : Object Value, field = .group variants ∧
      ∀ {p expression}, variants.get p = some expression → validPluginKey p = true

/-- What is read back of a draft: an empty group of plugin expressions is not stored. -/
def PricingValues.stored (draft : PricingValues) : PricingValues :=
  if (Field.entries (draft.get pluginBillingExprOption)).isEmpty then
    draft.delete pluginBillingExprOption
  else draft

section Drafts

variable {codec : Codec} {node : Node} {name key : String} {values previous draft : PricingValues}
  {maps : PricingMaps}

theorem valid_of_validateVariant {previousVariants : Object Value} {value : Value}
    (hprevious : ∀ {p expression}, previousVariants.get p = some expression →
      validPluginKey p = true)
    (h : validateVariant node name previousVariants key value = .ok ()) :
    validPluginKey key = true := by
  cases value with
  | string expression =>
    unfold validateVariant at h
    obtain ⟨hblank, h⟩ := guard_eq_ok.mp h
    cases hown : previousVariants.get key with
    | some own => exact hprevious hown
    | none =>
      rw [hown, if_neg (by simp)] at h
      cases hplugin : node.get key with
      | none =>
        rw [hplugin] at h
        cases h
      | some plugin =>
        have hkey : plugin.key = key := by
          have hfound := List.find?_some hplugin
          exact of_decide_eq_true hfound
        rw [← hkey]
        exact plugin.valid
  | null => cases h
  | bool value => cases h
  | number value => cases h
  | other text => cases h

theorem plain_of_validateField {field : Field}
    (h : validateField node name values previous key field = .ok ())
    (hkey : key ≠ pluginBillingExprOption) :
    key ∈ modelPricingOptionKeys ∧ ∃ value, field = .plain value := by
  unfold validateField at h
  rw [if_neg hkey] at h
  by_cases hoption : key ∈ modelPricingOptionKeys
  · refine ⟨hoption, ?_⟩
    rw [if_neg (by simpa using hoption)] at h
    cases field with
    | plain value => exact ⟨value, rfl⟩
    | group entries =>
      exfalso
      obtain ⟨hallowed, h⟩ := guard_eq_ok.mp h
      by_cases hmode : key = billingModeOption
      · rw [if_pos hmode, if_neg (by simp [Field.isString])] at h
        cases h
      · rw [if_neg hmode] at h
        obtain ⟨hexpr, ⟨⟩⟩ := guard_eq_ok.mp h
  · rw [if_pos hoption] at h
    cases h

theorem valid_of_validateModelPricing
    (hprevious : ∀ {p expression},
      (Field.entries (previous.get pluginBillingExprOption)).get p = some expression →
        validPluginKey p = true)
    (h : validateModelPricing node name draft previous = .ok ()) :
    trimSpace name ≠ "" ∧ draft.Valid := by
  unfold validateModelPricing at h
  dsimp only at h
  have hname : trimSpace name ≠ "" := by
    intro hblank
    rw [if_pos hblank] at h
    cases h
  rw [if_neg hname, ok_bind] at h
  obtain ⟨_, hvariants, h⟩ := bind_eq_ok.mp h
  obtain ⟨_, hfields, -⟩ := bind_eq_ok.mp h
  have hfield : ∀ {key field}, draft.get key = some field →
      validateField node name draft previous key field = .ok () := by
    intro key field hget
    exact forM_eq_ok.mp hfields (key, field) (SortedMap.mem_entries_iff.mpr hget)
  refine ⟨hname, fun {key field} hget => ?_, fun hget hkey =>
    (plain_of_validateField (hfield hget) hkey).2, fun {field} hget => ?_⟩
  · by_cases hkey : key = pluginBillingExprOption
    · rw [hkey]
      decide
    · exact (plain_of_validateField (hfield hget) hkey).1
  · unfold validateVariants at hvariants
    rw [hget] at hvariants
    cases field with
    | plain value => cases hvariants
    | group variants =>
      refine ⟨variants, rfl, fun {p expression} hvariant => ?_⟩
      have hchecked :=
        forM_eq_ok.mp hvariants (p, expression) (SortedMap.mem_entries_iff.mpr hvariant)
      exact valid_of_validateVariant hprevious hchecked

theorem valid_of_get_entries {p : String} {expression : Value}
    (h : (Field.entries ((modelPricingValues maps name).get pluginBillingExprOption)).get p =
      some expression) : validPluginKey p = true := by
  rw [get_modelPricingValues, if_pos (by decide)] at h
  unfold pricingField at h
  rw [if_pos rfl] at h
  dsimp only at h
  by_cases hempty : (pluginVariants (maps pluginBillingExprOption) name).isEmpty = true
  · rw [if_pos hempty] at h
    cases h
  · rw [if_neg hempty] at h
    have hget : (pluginVariants (maps pluginBillingExprOption) name).get p = some expression := h
    rw [get_pluginVariants] at hget
    by_cases hvalid : validPluginKey p = true ∧ trimSpace name ≠ ""
    · exact hvalid.1
    · rw [if_neg hvalid] at hget
      cases hget

end Drafts

/-! ### One change -/

section Change

variable {codec : Codec} {name model key p : String} {entries : Object Value}
  {draft : PricingValues} {values : PricingMaps}

theorem get_replaced {variants : Object Value} (hname : trimSpace name ≠ "")
    (hvariants : ∀ {p expression}, variants.get p = some expression → validPluginKey p = true)
    (hp : validPluginKey p = true) (hmodel : trimSpace model ≠ "") :
    ((entries.filter fun variant _ =>
        match splitPluginBillingExprKey variant with
        | some (_, model) => decide (model ≠ name)
        | none => true).setAll (variants.entries.map fun (plugin, expression) =>
          (pluginBillingExprKey plugin name, expression))).get (pluginBillingExprKey p model) =
      if model = name then variants.get p else entries.get (pluginBillingExprKey p model) := by
  have hmem : ∀ expression, (pluginBillingExprKey p model, expression) ∈
      (variants.entries.map fun (plugin, expression) =>
        (pluginBillingExprKey plugin name, expression)) ↔
      model = name ∧ variants.get p = some expression := by
    intro expression
    rw [List.mem_map]
    constructor
    · rintro ⟨⟨plugin, own⟩, hentry, heq⟩
      obtain ⟨hkey, rfl⟩ := Prod.mk.inj heq
      rw [SortedMap.mem_entries_iff] at hentry
      have hsplit := split_key (hvariants hentry) hname
      rw [hkey, split_key hp hmodel] at hsplit
      cases hsplit
      exact ⟨rfl, hentry⟩
    · rintro ⟨rfl, hget⟩
      exact ⟨(p, expression), SortedMap.mem_entries_iff.mpr hget, rfl⟩
  by_cases hsame : model = name
  · rw [if_pos hsame]
    cases hget : variants.get p with
    | none =>
      refine (SortedMap.get_setAll_of_not_mem fun expression h => ?_).trans ?_
      · have hsome := ((hmem expression).mp h).2
        rw [hget] at hsome
        cases hsome
      · rw [SortedMap.get_filter, split_key hp hmodel]
        cases entries.get (pluginBillingExprKey p model) <;> simp [hsame]
    | some expression =>
      refine SortedMap.get_setAll_of_mem ((hmem expression).mpr ⟨hsame, hget⟩) fun other h => ?_
      have hsome := ((hmem other).mp h).2
      rw [hget] at hsome
      exact (Option.some.inj hsome).symm
  · rw [if_neg hsame]
    refine (SortedMap.get_setAll_of_not_mem fun expression h => ?_).trans ?_
    · exact hsame ((hmem expression).mp h).1
    · rw [SortedMap.get_filter, split_key hp hmodel]
      cases entries.get (pluginBillingExprKey p model) <;> simp [hsame]

theorem pluginVariants_replaceEntries (hname : trimSpace name ≠ "") (hdraft : draft.Valid) :
    pluginVariants (replaceEntries codec entries pluginBillingExprOption name draft) model =
      if model = name then Field.entries (draft.get pluginBillingExprOption)
      else pluginVariants entries model := by
  have hvariants : ∀ {p expression},
      (Field.entries (draft.get pluginBillingExprOption)).get p = some expression →
        validPluginKey p = true := by
    intro p expression hget
    cases hfield : draft.get pluginBillingExprOption with
    | none =>
      rw [hfield] at hget
      cases hget
    | some field =>
      obtain ⟨variants, rfl, hvalid⟩ := hdraft.group hfield
      rw [hfield] at hget
      exact hvalid hget
  refine SortedMap.ext_get fun p => ?_
  rw [get_pluginVariants]
  unfold replaceEntries
  rw [if_pos rfl]
  by_cases hp : validPluginKey p = true ∧ trimSpace model ≠ ""
  · rw [if_pos hp]
    refine (get_replaced hname hvariants hp.1 hp.2).trans ?_
    by_cases hsame : model = name
    · rw [if_pos hsame, if_pos hsame]
    · rw [if_neg hsame, if_neg hsame, get_pluginVariants, if_pos hp]
  · rw [if_neg hp]
    by_cases hsame : model = name
    · rw [if_pos hsame]
      cases hget : (Field.entries (draft.get pluginBillingExprOption)).get p with
      | none => rfl
      | some expression => exact absurd ⟨hvariants hget, hsame ▸ hname⟩ hp
    · rw [if_neg hsame, get_pluginVariants, if_neg hp]

theorem pricingField_replaceEntries (hname : trimSpace name ≠ "") (hdraft : draft.Valid) :
    pricingField (replaceEntries codec entries key name draft) key model =
      if model = name then draft.stored.get key else pricingField entries key model := by
  by_cases hkey : key = pluginBillingExprOption
  · subst hkey
    unfold pricingField
    rw [if_pos rfl, if_pos rfl, pluginVariants_replaceEntries hname hdraft]
    dsimp only
    by_cases hsame : model = name
    · rw [if_pos hsame, if_pos hsame]
      unfold PricingValues.stored
      by_cases hempty : (Field.entries (draft.get pluginBillingExprOption)).isEmpty = true
      · rw [if_pos hempty, if_pos hempty, SortedMap.get_delete_self]
      · rw [if_neg hempty, if_neg hempty]
        cases hfield : draft.get pluginBillingExprOption with
        | none =>
          rw [hfield] at hempty
          exact absurd rfl hempty
        | some field =>
          obtain ⟨variants, rfl, -⟩ := hdraft.group hfield
          rfl
    · rw [if_neg hsame, if_neg hsame]
  · have hstored : draft.stored.get key = draft.get key := by
      unfold PricingValues.stored
      by_cases hempty : (Field.entries (draft.get pluginBillingExprOption)).isEmpty = true
      · rw [if_pos hempty, SortedMap.get_delete_ne hkey]
      · rw [if_neg hempty]
    unfold pricingField replaceEntries
    rw [if_neg hkey, if_neg hkey, if_neg hkey, hstored]
    cases hfield : draft.get key with
    | none =>
      by_cases hsame : model = name
      · rw [if_pos hsame, hsame, SortedMap.get_delete_self]
        rfl
      · rw [if_neg hsame, SortedMap.get_delete_ne hsame]
    | some field =>
      obtain ⟨value, rfl⟩ := hdraft.plain hfield hkey
      by_cases hsame : model = name
      · rw [if_pos hsame, hsame, SortedMap.get_set_self]
        rfl
      · rw [if_neg hsame, SortedMap.get_set_ne hsame, SortedMap.get_delete_ne hsame]

theorem foldl_replaceEntries : ∀ {keys : List String} {values : PricingMaps}, keys.Nodup →
    keys.foldl (fun values key =>
      Function.update values key (replaceEntries codec (values key) key name draft)) values key =
      if key ∈ keys then replaceEntries codec (values key) key name draft else values key := by
  intro keys
  induction keys with
  | nil => exact fun _ => rfl
  | cons first rest ih =>
    intro values hnodup
    obtain ⟨hfirst, hrest⟩ := List.nodup_cons.mp hnodup
    rw [List.foldl_cons, ih hrest]
    by_cases hsame : key = first
    · subst hsame
      rw [if_neg hfirst, Function.update_self, if_pos List.mem_cons_self]
    · rw [Function.update_of_ne hsame]
      simp [hsame]

theorem modelPricingValues_replaceModelPricing (hname : trimSpace name ≠ "")
    (hdraft : draft.Valid) :
    modelPricingValues (replaceModelPricing codec values name draft) model =
      if model = name then draft.stored else modelPricingValues values model := by
  have hstored : ∀ {key field}, draft.stored.get key = some field →
      key ∈ modelPricingOptionKeys := by
    intro key field hget
    unfold PricingValues.stored at hget
    by_cases hempty : (Field.entries (draft.get pluginBillingExprOption)).isEmpty = true
    · rw [if_pos hempty] at hget
      by_cases hkey : key = pluginBillingExprOption
      · rw [hkey]
        decide
      · rw [SortedMap.get_delete_ne hkey] at hget
        exact hdraft.option hget
    · rw [if_neg hempty] at hget
      exact hdraft.option hget
  refine SortedMap.ext_get fun key => ?_
  rw [get_modelPricingValues]
  unfold replaceModelPricing
  rw [foldl_replaceEntries (by decide)]
  by_cases hkey : key ∈ modelPricingOptionKeys
  · rw [if_pos hkey, if_pos hkey, pricingField_replaceEntries hname hdraft]
    by_cases hsame : model = name
    · rw [if_pos hsame, if_pos hsame]
    · rw [if_neg hsame, if_neg hsame, get_modelPricingValues, if_pos hkey]
  · rw [if_neg hkey]
    by_cases hsame : model = name
    · rw [if_pos hsame]
      cases hget : draft.stored.get key with
      | none => rfl
      | some field => exact absurd (hstored hget) hkey
    · rw [if_neg hsame, get_modelPricingValues, if_neg hkey]

end Change

/-! ### The changes of a call -/

section Changes

variable {codec : Codec} {node : Node} {changes : List ModelPricingChange} {name : String}
  {values values' : PricingMaps}

theorem nodup_of_checkChanges : ∀ {changes : List ModelPricingChange} {seen : List String},
    checkChanges seen changes = .ok () →
      (changes.map (·.modelName)).Nodup ∧ ∀ change ∈ changes, change.modelName ∉ seen := by
  intro changes
  induction changes with
  | nil => exact fun {_} _ => ⟨List.nodup_nil, by simp⟩
  | cons change rest ih =>
    intro seen h
    unfold checkChanges at h
    obtain ⟨hseen, h⟩ := guard_eq_ok.mp h
    obtain ⟨hversion, h⟩ := guard_eq_ok.mp h
    obtain ⟨hnodup, hrest⟩ := ih h
    refine ⟨List.nodup_cons.mpr ⟨fun hmem => ?_, hnodup⟩, fun own hown => ?_⟩
    · obtain ⟨other, hother, heq⟩ := List.mem_map.mp hmem
      exact hrest other hother (heq ▸ List.mem_cons_self)
    · obtain rfl | hown := List.mem_cons.mp hown
      · exact hseen
      · exact fun hold => hrest own hown (List.mem_cons_of_mem _ hold)

theorem applyChange_ok {change : ModelPricingChange}
    (h : applyChange codec node values change = .ok values') :
    codec.version (modelPricingValues values change.modelName) = change.expectedVersion ∧
      ∀ model, modelPricingValues values' model =
        if model = change.modelName then (change.draft codec).stored
        else modelPricingValues values model := by
  unfold applyChange at h
  dsimp only at h
  by_cases hversion :
      codec.version (modelPricingValues values change.modelName) = change.expectedVersion
  · rw [if_neg (by simpa using hversion)] at h
    obtain ⟨_, hvalidate, h⟩ := bind_eq_ok.mp h
    unfold validate at hvalidate
    cases hchecked : validateModelPricing node change.modelName (change.draft codec)
        (modelPricingValues values change.modelName) with
    | error message =>
      rw [hchecked] at hvalidate
      cases hvalidate
    | ok =>
      obtain ⟨hname, hdraft⟩ := valid_of_validateModelPricing valid_of_get_entries hchecked
      cases h
      exact ⟨hversion, fun model => modelPricingValues_replaceModelPricing hname hdraft⟩
  · rw [if_pos hversion] at h
    cases h

theorem applyChanges_ok : ∀ {changes : List ModelPricingChange} {values : PricingMaps},
    (changes.map (·.modelName)).Nodup →
    changes.foldlM (applyChange codec node) values = .ok values' →
      (∀ change ∈ changes,
        codec.version (modelPricingValues values change.modelName) = change.expectedVersion ∧
          modelPricingValues values' change.modelName = (change.draft codec).stored) ∧
      ∀ name, name ∉ changes.map (·.modelName) →
        modelPricingValues values' name = modelPricingValues values name := by
  intro changes
  induction changes with
  | nil =>
    intro values _ h
    cases h
    exact ⟨by simp, fun _ _ => rfl⟩
  | cons first rest ih =>
    intro values hnodup h
    rw [List.map_cons, List.nodup_cons] at hnodup
    rw [List.foldlM_cons] at h
    obtain ⟨middle, hfirst, h⟩ := bind_eq_ok.mp h
    obtain ⟨hversion, hmiddle⟩ := applyChange_ok hfirst
    obtain ⟨hrest, hothers⟩ := ih hnodup.2 h
    constructor
    · intro change hchange
      obtain rfl | hchange := List.mem_cons.mp hchange
      · refine ⟨hversion, ?_⟩
        rw [hothers _ hnodup.1, hmiddle, if_pos rfl]
      · have hne : change.modelName ≠ first.modelName := fun heq =>
          hnodup.1 (heq ▸ List.mem_map_of_mem hchange)
        have hown := hrest change hchange
        rw [hmiddle, if_neg hne] at hown
        exact hown
    · intro name hname
      rw [List.map_cons, List.mem_cons, not_or] at hname
      rw [hothers name hname.2, hmiddle, if_neg hname.1]

theorem applyUpdates_ok : ∀ {updates : List (String × Option (Object Value))}
    {state state' : PricingMaps × List String},
    updates.Pairwise (fun a b => a.1 < b.1) → updates.foldlM applyUpdate state = .ok state' →
      (∀ key submitted, (key, submitted) ∈ updates → submitted = some (state'.1 key)) ∧
      ∀ key, (∀ submitted, (key, submitted) ∉ updates) → state'.1 key = state.1 key := by
  intro updates
  induction updates with
  | nil =>
    intro state state' _ h
    cases h
    exact ⟨by simp, fun _ _ => rfl⟩
  | cons update rest ih =>
    intro state state' hsorted h
    obtain ⟨hlater, hrest⟩ := List.pairwise_cons.mp hsorted
    obtain ⟨key, submitted⟩ := update
    rw [List.foldlM_cons] at h
    obtain ⟨middle, hupdate, h⟩ := bind_eq_ok.mp h
    obtain ⟨hnamed, hothers⟩ := ih hrest h
    have hmiddle : submitted = some (middle.1 key) ∧
        ∀ other, other ≠ key → middle.1 other = state.1 other := by
      unfold applyUpdate at hupdate
      obtain ⟨hkey, hupdate⟩ := guard_eq_ok.mp hupdate
      cases submitted with
      | none => cases hupdate
      | some entries =>
        obtain ⟨before, -, hupdate⟩ := bind_eq_ok.mp hupdate
        obtain ⟨after, -, hupdate⟩ := bind_eq_ok.mp hupdate
        cases hupdate
        refine ⟨?_, fun other hother => Function.update_of_ne hother _ _⟩
        dsimp only
        rw [Function.update_self]
    have hnot : ∀ own, (key, own) ∉ rest := fun own hmem => absurd rfl (hlater _ hmem).ne
    constructor
    · intro own entries hmem
      obtain heq | hmem := List.mem_cons.mp hmem
      · obtain ⟨rfl, rfl⟩ := Prod.mk.inj heq
        rw [hothers own hnot]
        exact hmiddle.1
      · exact hnamed own entries hmem
    · intro own hown
      have hne : own ≠ key := fun heq => hown submitted (heq ▸ List.mem_cons_self)
      rw [hothers own fun entries hmem => hown entries (List.mem_cons_of_mem _ hmem),
        hmiddle.2 own hne]

end Changes

/-! ### The store -/

section Store

variable {codec : Codec} {store committed : Store} {values : PricingMaps}

theorem foldlM_read : ∀ {rows : Store} {start : PricingMaps},
    (∀ row ∈ rows, row.key ∈ modelPricingOptionKeys → row.value = some (values row.key)) →
    ∃ result, rows.foldlM (fun values row =>
        if row.key ∈ modelPricingOptionKeys then
          match row.value with
          | some entries => Except.ok (Function.update values row.key entries)
          | none => .error (Failure.malformed row.key)
        else .ok values) start = .ok result ∧
      ∀ key ∈ modelPricingOptionKeys,
        result key = if rows.any (·.key = key) then values key else start key := by
  intro rows
  induction rows with
  | nil => exact fun {start} _ => ⟨start, rfl, fun _ _ => rfl⟩
  | cons row rest ih =>
    intro start hrows
    have hrest := fun other hother => hrows other (List.mem_cons_of_mem _ hother)
    rw [List.foldlM_cons]
    by_cases hkey : row.key ∈ modelPricingOptionKeys
    · rw [if_pos hkey, hrows row List.mem_cons_self hkey]
      obtain ⟨result, hresult, hget⟩ :=
        @ih (Function.update start row.key (values row.key)) hrest
      refine ⟨result, hresult, fun key hoption => ?_⟩
      rw [hget key hoption, List.any_cons]
      by_cases hsame : row.key = key
      · rw [hsame, Function.update_self]
        simp
      · rw [Function.update_of_ne (Ne.symm hsame)]
        simp [hsame]
    · rw [if_neg hkey]
      obtain ⟨result, hresult, hget⟩ := @ih start hrest
      refine ⟨result, hresult, fun key hoption => ?_⟩
      have hsame : row.key ≠ key := fun heq => hkey (heq ▸ hoption)
      rw [hget key hoption, List.any_cons]
      simp [hsame]

theorem any_createMissing {key : String} (hkey : key ∈ modelPricingOptionKeys) :
    (createMissing codec store).any (·.key = key) = true := by
  unfold createMissing
  rw [List.any_append, Bool.or_eq_true]
  by_cases hrow : store.any (·.key = key) = true
  · exact .inl hrow
  · refine .inr (List.any_eq_true.mpr ⟨⟨key, some (codec.defaults key)⟩, ?_, by simp⟩)
    refine List.mem_map.mpr ⟨key, List.mem_filter.mpr ⟨hkey, ?_⟩, rfl⟩
    rw [List.all_eq_true]
    intro row hmem
    refine decide_eq_true fun heq => hrow ?_
    exact List.any_eq_true.mpr ⟨row, hmem, decide_eq_true heq⟩

theorem read_writeMaps :
    ∃ result, readModelPricingMaps codec (writeMaps (createMissing codec store) values) =
        .ok result ∧ ∀ key ∈ modelPricingOptionKeys, result key = values key := by
  have hrows : ∀ row ∈ writeMaps (createMissing codec store) values,
      row.key ∈ modelPricingOptionKeys → row.value = some (values row.key) := by
    intro row hrow hkey
    obtain ⟨old, -, rfl⟩ := List.mem_map.mp hrow
    by_cases hold : old.key ∈ modelPricingOptionKeys
    · rw [if_pos hold]
    · rw [if_neg hold] at hkey
      exact absurd hkey hold
  obtain ⟨result, hresult, hget⟩ := @foldlM_read values _ codec.defaults hrows
  refine ⟨result, hresult, fun key hkey => ?_⟩
  have hany : (writeMaps (createMissing codec store) values).any (·.key = key) = true := by
    obtain ⟨row, hrow, hsame⟩ := List.any_eq_true.mp (@any_createMissing codec store key hkey)
    have hkeys : row.key = key := of_decide_eq_true hsame
    refine List.any_eq_true.mpr ⟨_, List.mem_map.mpr ⟨row, hrow, rfl⟩, ?_⟩
    rw [if_pos (hkeys ▸ hkey)]
    exact hsame
  rw [hget key hkey, if_pos hany]

theorem mutateModelPricingOptions_ok {mutate : PricingMaps → Except Failure PricingMaps}
    (h : mutateModelPricingOptions codec store mutate = .ok committed) :
    ∃ before after result, readModelPricingMaps codec store = .ok before ∧
      mutate before = .ok after ∧ readModelPricingMaps codec committed = .ok result ∧
      ∀ key ∈ modelPricingOptionKeys, result key = after key := by
  unfold mutateModelPricingOptions at h
  obtain ⟨before, hbefore, h⟩ := bind_eq_ok.mp h
  obtain ⟨after, hafter, h⟩ := bind_eq_ok.mp h
  obtain ⟨result, hresult, hget⟩ := @read_writeMaps codec store after
  cases h
  exact ⟨before, after, result, hbefore, hafter, hresult, hget⟩

end Store

/-! ### Calls -/

/-- A change was made on the values that its version stands for. -/
def ModelPricingChange.MadeOn (codec : Codec) (change : ModelPricingChange)
    (stored : PricingValues) : Prop :=
  codec.version stored = change.expectedVersion ∧
    ∀ seen, codec.version seen = change.expectedVersion → codec.version.Injective → stored = seen

/-- What a committed call has done to the option maps.  A change of prices is about the values that
its version stands for; a call with whole options takes their place, whatever they held. -/
def Call.Committed (codec : Codec) (before after : PricingMaps) : Call → Prop
  | .pricing _ changes =>
    (∀ change ∈ changes, change.MadeOn codec (modelPricingValues before change.modelName) ∧
      modelPricingValues after change.modelName = (change.draft codec).stored) ∧
    ∀ name, name ∉ changes.map (·.modelName) →
      modelPricingValues after name = modelPricingValues before name
  | .options _ updates =>
    ∀ key ∈ modelPricingOptionKeys,
      match updates.get key with
      | some submitted => submitted = some (after key)
      | none => after key = before key

/-- The calls that may give a model other values. -/
def Call.Names (name : String) : Call → Prop
  | .pricing _ changes => name ∈ changes.map (·.modelName)
  | .options _ updates => ∃ key submitted, updates.get key = some submitted

section Calls

variable {codec : Codec} {store committed : Store} {call : Call} {calls : List Call}
  {name : String} {before after after' : PricingMaps}

theorem Call.Committed.congr (h : call.Committed codec before after)
    (hafter : ∀ key ∈ modelPricingOptionKeys, after' key = after key) :
    call.Committed codec before after' := by
  cases call with
  | pricing node changes =>
    refine ⟨fun change hchange => ?_, fun name hname => ?_⟩
    · rw [modelPricingValues_congr hafter]
      exact h.1 change hchange
    · rw [modelPricingValues_congr hafter]
      exact h.2 name hname
  | options node updates =>
    intro key hkey
    rw [hafter key hkey]
    exact h key hkey

theorem Call.Committed.unnamed (h : call.Committed codec before after)
    (hname : ¬ call.Names name) :
    modelPricingValues after name = modelPricingValues before name := by
  cases call with
  | pricing node changes => exact h.2 name hname
  | options node updates =>
    refine modelPricingValues_congr fun key hkey => ?_
    have hoption := h key hkey
    cases hget : updates.get key with
    | some submitted => exact absurd ⟨key, submitted, hget⟩ hname
    | none =>
      rw [hget] at hoption
      exact hoption

theorem committed_transaction (h : call.transaction codec store = .ok committed) :
    ∃ before after, readModelPricingMaps codec store = .ok before ∧
      readModelPricingMaps codec committed = .ok after ∧ call.Committed codec before after := by
  cases call with
  | pricing node changes =>
    have hupdate : updateModelPricing codec node changes store = .ok committed := h
    unfold updateModelPricing at hupdate
    obtain ⟨hnone, hupdate⟩ := guard_eq_ok.mp hupdate
    obtain ⟨_, hchecked, hmutate⟩ := bind_eq_ok.mp hupdate
    obtain ⟨before, written, after, hbefore, hchanges, hafter, hget⟩ :=
      mutateModelPricingOptions_ok hmutate
    obtain ⟨hmade, hothers⟩ := applyChanges_ok (nodup_of_checkChanges hchecked).1 hchanges
    have hcommitted : (Call.pricing node changes).Committed codec before written := by
      refine ⟨fun change hchange => ⟨⟨(hmade change hchange).1, fun seen hseen hinj => ?_⟩,
        (hmade change hchange).2⟩, hothers⟩
      exact hinj ((hmade change hchange).1.trans hseen.symm)
    exact ⟨before, after, hbefore, hafter, hcommitted.congr hget⟩
  | options node updates =>
    have hupdate : updateModelPricingOptions codec node updates store = .ok committed := h
    obtain ⟨before, written, after, hbefore, hmutate, hafter, hget⟩ :=
      mutateModelPricingOptions_ok hupdate
    obtain ⟨state, hstate, hmutate⟩ := bind_eq_ok.mp hmutate
    obtain ⟨_, -, hwritten⟩ := bind_eq_ok.mp hmutate
    obtain ⟨hnamed, hothers⟩ := applyUpdates_ok updates.sorted hstate
    have hmaps : state.1 = written := Except.ok.inj hwritten
    have hcommitted : (Call.options node updates).Committed codec before written := by
      intro key _
      rw [← hmaps]
      cases hsubmitted : updates.get key with
      | some submitted => exact hnamed key submitted (SortedMap.mem_entries_iff.mpr hsubmitted)
      | none =>
        refine hothers key fun submitted hmem => ?_
        rw [SortedMap.mem_entries_iff, hsubmitted] at hmem
        cases hmem
    exact ⟨before, after, hbefore, hafter, hcommitted.congr hget⟩

theorem run_of_ok (h : call.transaction codec store = .ok committed) :
    call.run codec store = committed := by
  unfold Call.run
  rw [h]

theorem run_unnamed : ∀ {calls : List Call} {store : Store} {before : PricingMaps},
    readModelPricingMaps codec store = .ok before → (∀ call ∈ calls, ¬ call.Names name) →
    ∃ after, readModelPricingMaps codec (calls.foldl (Call.run codec) store) = .ok after ∧
      modelPricingValues after name = modelPricingValues before name := by
  intro calls
  induction calls with
  | nil => exact fun {_ before} hbefore _ => ⟨before, hbefore, rfl⟩
  | cons call rest ih =>
    intro store before hbefore hcalls
    have hrest := fun other hother => hcalls other (List.mem_cons_of_mem _ hother)
    rw [List.foldl_cons]
    cases htransaction : call.transaction codec store with
    | error failure =>
      have hrun : call.run codec store = store := by
        unfold Call.run
        rw [htransaction]
      rw [hrun]
      exact ih hbefore hrest
    | ok committed =>
      rw [run_of_ok htransaction]
      obtain ⟨own, middle, hown, hmiddle, hcommitted⟩ := committed_transaction htransaction
      obtain rfl : own = before := Except.ok.inj (hown.symm.trans hbefore)
      obtain ⟨after, hafter, hvalues⟩ := ih hmiddle hrest
      exact ⟨after, hafter, hvalues.trans (hcommitted.unnamed (hcalls call List.mem_cons_self))⟩

/-- In every run, a committed call was made on the values that its versions stand for, gave the
models it names what it submits, and left the others as they were; and what it gave a model stays
until another call names that model. -/
theorem committed_run {later : List Call}
    (h : call.transaction codec (calls.foldl (Call.run codec) store) = .ok committed)
    (hlater : ∀ call ∈ later, ¬ call.Names name) :
    ∃ before after final,
      readModelPricingMaps codec (calls.foldl (Call.run codec) store) = .ok before ∧
      readModelPricingMaps codec committed = .ok after ∧
      call.Committed codec before after ∧
      readModelPricingMaps codec ((calls ++ call :: later).foldl (Call.run codec) store) =
        .ok final ∧
      modelPricingValues final name = modelPricingValues after name := by
  obtain ⟨before, after, hbefore, hafter, hcommitted⟩ := committed_transaction h
  obtain ⟨final, hfinal, hvalues⟩ := run_unnamed hafter hlater
  refine ⟨before, after, final, hbefore, hafter, hcommitted, ?_, hvalues⟩
  rw [List.foldl_append, List.foldl_cons, run_of_ok h]
  exact hfinal

end Calls

/-! ### A group without expressions -/

def plainCodec : Codec where
  version values := if values.isEmpty then "empty" else "priced"
  objectText _ := "\x7b\x7d"
  defaults _ := .empty

def plainNode : Node where
  plugins := []
  resolveTaskModelAlias _ := none
  compile _ := none
  usesUsage _ := false
  smokeTestExpr _ := none
  smokeTestTaskExpr _ _ _ := none

def firstChange (pricing : PricingValues) : ModelPricingChange where
  modelName := "gpt-4"
  expectedVersion := "empty"
  pricing := pricing

def ratioMode : PricingValues := .set .empty billingModeOption (.plain (.string "ratio"))

def noVariants : PricingValues := .set .empty pluginBillingExprOption (.group .empty)

theorem committed_run_ratioMode :
    ∃ before after final,
      readModelPricingMaps plainCodec [] = .ok before ∧
      readModelPricingMaps plainCodec
        ((Call.pricing plainNode [firstChange ratioMode]).run plainCodec []) = .ok after ∧
      (Call.pricing plainNode [firstChange ratioMode]).Committed plainCodec before after ∧
      readModelPricingMaps plainCodec
        ([Call.pricing plainNode [firstChange ratioMode]].foldl (Call.run plainCodec) []) = .ok final ∧
      modelPricingValues final "gpt-4" = modelPricingValues after "gpt-4" := by
  have h : (Call.pricing plainNode [firstChange ratioMode]).transaction plainCodec [] =
      .ok ((Call.pricing plainNode [firstChange ratioMode]).run plainCodec []) := by rfl
  exact @committed_run plainCodec [] _ _ [] "gpt-4" [] h (by simp)

/-- The empty group is not read back. -/
theorem noVariants_not_read_back :
    ∃ committed after,
      updateModelPricing plainCodec plainNode [firstChange noVariants] [] = .ok committed ∧
      readModelPricingMaps plainCodec committed = .ok after ∧
      modelPricingValues after "gpt-4" ≠ noVariants := by
  refine ⟨_, _, rfl, rfl, fun heq => ?_⟩
  have hkeys := congrArg SortedMap.keys heq
  revert hkeys
  decide +kernel

end JulongApi.ModelPricing
