/-
The prices that are shown for a model are the prices that its requests are charged with, under the
name that the relay resolves.

`get_aliasedPricingValues` says what the display finds under each option; with the options as the
relay has them loaded, `effective_tiered`, `effective_fixed` and `effective_ratios` read the three
kinds of prices off it.
-/
import JulongApi.EffectivePricing
import JulongApi.Proofs.ModelPricing

namespace JulongApi.ModelPricing

/-- The settings of a node hold what is stored: numbers and texts, by the type of the option. -/
structure Settings.LoadedFrom (settings : Settings) (values : PricingMaps) : Prop where
  modelPrice : ∀ name,
    (values "ModelPrice").get name = (settings.modelPrice.get name).map .number
  modelRatio : ∀ name,
    (values "ModelRatio").get name = (settings.modelRatio.get name).map .number
  completionRatio : ∀ name,
    (values "CompletionRatio").get name = (settings.completionRatio.get name).map .number
  cacheRatio : ∀ name,
    (values "CacheRatio").get name = (settings.cacheRatio.get name).map .number
  createCacheRatio : ∀ name,
    (values "CreateCacheRatio").get name = (settings.createCacheRatio.get name).map .number
  imageRatio : ∀ name,
    (values "ImageRatio").get name = (settings.imageRatio.get name).map .number
  billingMode : ∀ name,
    (values billingModeOption).get name = (settings.billingMode.get name).map .string
  billingExpr : ∀ name,
    (values billingExprOption).get name = (settings.billingExpr.get name).map .string

inductive Prices where
  | tiered (expression : String)
  | fixed (price : Float)
  | ratios (model completion cache cacheCreation image : Float)

/-- The price that effective values give, for a user who may accept a model without a ratio. -/
def PricingValues.prices (values : PricingValues) (acceptUnsetRatioModel : Bool) :
    Except PriceFailure Prices :=
  if Field.text (values.get billingModeOption) = some "tiered_expr" then
    match Field.text (values.get billingExprOption) with
    | some expression => .ok (.tiered expression)
    | none => .error .noExpression
  else
    match Field.number (values.get "ModelPrice") with
    | some price => .ok (.fixed price)
    | none =>
      let unset := if acceptUnsetRatioModel then some unsetModelRatio else none
      match (Field.number (values.get "ModelRatio")).or unset,
          Field.number (values.get "CompletionRatio"), Field.number (values.get "CacheRatio"),
          Field.number (values.get "CreateCacheRatio"),
          Field.number (values.get "ImageRatio") with
      | some model, some completion, some cache, some cacheCreation, some image =>
        .ok (.ratios model completion cache cacheCreation image)
      | _, _, _, _, _ => .error .notConfigured

/-- An image request multiplies a fixed price by its own factor, if it has one. -/
def Prices.forRequest (imagePriceRatio : Float) : Prices → Prices
  | .fixed price => .fixed (if imagePriceRatio != 0 then price * imagePriceRatio else price)
  | prices => prices

def Charge.prices : Charge → Prices
  | .tiered expression => .tiered expression
  | .plain data =>
    if data.usePrice then .fixed data.modelPrice
    else .ratios data.modelRatio data.completionRatio data.cacheRatio data.cacheCreationRatio
      data.imageRatio

/-! ### Names -/

theorem formatMatchingModelName_idem (name : String) :
    formatMatchingModelName (formatMatchingModelName name) = formatMatchingModelName name := by
  have hcases : formatMatchingModelName name ∈ ["gpt-4o-gizmo-*", "gpt-4-gizmo-*",
      "gemini-2.5-flash-lite-thinking-*", "gemini-2.5-flash-thinking-*",
      "gemini-2.5-pro-thinking-*"] ∨ formatMatchingModelName name = name := by
    unfold formatMatchingModelName handleThinkingBudgetModel
    dsimp only
    split_ifs <;> simp
  obtain hmem | hsame := hcases
  · generalize formatMatchingModelName name = own at hmem ⊢
    revert own
    decide +kernel
  · rw [hsame, hsame]

/-! ### The values of the display -/

section Display

variable {values : PricingMaps} {settings : Settings} {name key : String}

theorem get_foldl_alias {own : String} : ∀ {keys : List String} {result : PricingValues},
    (keys.foldl (fun result key =>
      match (values key).get own with
      | some value => (result.delete key).set key (.plain value)
      | none => result.delete key) result).get key =
      if key ∈ keys then ((values key).get own).map .plain else result.get key := by
  intro keys
  induction keys with
  | nil => exact fun {_} => rfl
  | cons first rest ih =>
    intro result
    rw [List.foldl_cons, ih]
    by_cases hfirst : key = first
    · subst hfirst
      cases (values key).get own <;> simp
    · have hget : (match (values first).get own with
          | some value => (result.delete first).set first (.plain value)
          | none => result.delete first).get key = result.get key := by
        cases (values first).get own <;> simp [hfirst]
      rw [hget]
      simp [hfirst]

theorem get_aliasedPricingValues :
    (aliasedPricingValues values name).get key =
      if key ∈ aliasOptions then ((values key).get (formatMatchingModelName name)).map .plain
      else (modelPricingValues values name).get key := get_foldl_alias

theorem get_modelPricingValues_plain (hkey : key ∈ modelPricingOptionKeys)
    (hplain : key ≠ pluginBillingExprOption) :
    (modelPricingValues values name).get key = ((values key).get name).map .plain := by
  rw [get_modelPricingValues, if_pos hkey]
  unfold pricingField
  rw [if_neg hplain]

/-- What the display has found of a model, before it fills in what is not there. -/
structure Settings.Shown (settings : Settings) (name : String) (result : PricingValues) : Prop where
  mode : result.get billingModeOption =
    (settings.billingMode.get name).map fun mode => .plain (.string mode)
  expression : result.get billingExprOption =
    (settings.billingExpr.get name).map fun expression => .plain (.string expression)
  price : result.get "ModelPrice" =
    (settings.modelPrice.get (formatMatchingModelName name)).map fun price => .plain (.number price)
  ratio : result.get "ModelRatio" =
    (settings.modelRatio.get (formatMatchingModelName name)).map fun ratio => .plain (.number ratio)
  completion : result.get "CompletionRatio" =
    (settings.completionRatio.get (formatMatchingModelName name)).map fun ratio =>
      .plain (.number ratio)
  cache : result.get "CacheRatio" =
    (settings.cacheRatio.get name).map fun ratio => .plain (.number ratio)
  createCache : result.get "CreateCacheRatio" =
    (settings.createCacheRatio.get name).map fun ratio => .plain (.number ratio)
  image : result.get "ImageRatio" =
    (settings.imageRatio.get name).map fun ratio => .plain (.number ratio)

theorem Settings.LoadedFrom.shown (h : settings.LoadedFrom values) (name : String) :
    settings.Shown name (aliasedPricingValues values name) := by
  have halias : ∀ {key}, key ∈ aliasOptions → (aliasedPricingValues values name).get key =
      ((values key).get (formatMatchingModelName name)).map .plain := by
    intro key hkey
    rw [get_aliasedPricingValues, if_pos hkey]
  have hown : ∀ {key}, key ∉ aliasOptions → key ∈ modelPricingOptionKeys →
      key ≠ pluginBillingExprOption →
      (aliasedPricingValues values name).get key = ((values key).get name).map .plain := by
    intro key halias hkey hplain
    rw [get_aliasedPricingValues, if_neg halias, get_modelPricingValues_plain hkey hplain]
  constructor
  · rw [hown (by decide) (by decide) (by decide), h.billingMode, Option.map_map]
    rfl
  · rw [hown (by decide) (by decide) (by decide), h.billingExpr, Option.map_map]
    rfl
  · rw [halias (by decide), h.modelPrice, Option.map_map]
    rfl
  · rw [halias (by decide), h.modelRatio, Option.map_map]
    rfl
  · rw [halias (by decide), h.completionRatio, Option.map_map]
    rfl
  · rw [hown (by decide) (by decide) (by decide), h.cacheRatio, Option.map_map]
    rfl
  · rw [hown (by decide) (by decide) (by decide), h.createCacheRatio, Option.map_map]
    rfl
  · rw [hown (by decide) (by decide) (by decide), h.imageRatio, Option.map_map]
    rfl

end Display

/-! ### The three kinds of prices -/

section Kinds

variable {values : PricingMaps} {settings : Settings} {name : String} {result : PricingValues}
  {acceptUnset : Bool}

def shownMode (result : PricingValues) (name : String) : String :=
  let mode := (Field.text (result.get billingModeOption)).getD ""
  if mode = "" ∧ (getBuiltinBillingExpr name).isSome ∧ (result.get "ModelPrice").isNone ∧
      (result.get "ModelRatio").isNone then
    "tiered_expr"
  else mode

theorem shownMode_tiered_iff (h : settings.Shown name result)
    (hmode : settings.billingMode.get name ≠ some "") :
    shownMode result name = "tiered_expr" ↔ getBillingMode settings name = "tiered_expr" := by
  unfold shownMode getBillingMode hasConfiguredModelRatio getModelPrice
  rw [h.mode, h.price, h.ratio]
  cases hstored : settings.billingMode.get name with
  | some mode =>
    have hne : mode ≠ "" := fun heq => hmode (heq ▸ hstored)
    have htext : (Field.text ((some mode).map fun mode => Field.plain (.string mode))).getD "" =
        mode := rfl
    dsimp only
    rw [htext, if_neg fun h => hne h.1]
  | none =>
    have htext : (Field.text ((none : Option String).map
        fun mode => Field.plain (.string mode))).getD "" = "" := rfl
    dsimp only
    rw [htext]
    cases getBuiltinBillingExpr name <;>
      cases settings.modelPrice.get (formatMatchingModelName name) <;>
      cases settings.modelRatio.get (formatMatchingModelName name) <;> simp

def tieredPrices : Option String → Except PriceFailure Prices
  | some expression => .ok (.tiered expression)
  | none => .error .noExpression

theorem prices_tiered {expression : Option String}
    (hmode : result.get billingModeOption = some (.plain (.string "tiered_expr")))
    (hexpression : result.get billingExprOption =
      expression.map fun expression => .plain (.string expression)) :
    result.prices acceptUnset = tieredPrices expression := by
  unfold PricingValues.prices
  rw [hmode, hexpression]
  cases expression <;> rfl

theorem prices_fixed {price : Float}
    (hmode : Field.text (result.get billingModeOption) ≠ some "tiered_expr")
    (hprice : result.get "ModelPrice" = some (.plain (.number price))) :
    result.prices acceptUnset = .ok (.fixed price) := by
  unfold PricingValues.prices
  rw [if_neg hmode, hprice]
  rfl

theorem prices_ratios {ratio : Option Float} {completion cache createCache image : Float}
    (hmode : Field.text (result.get billingModeOption) ≠ some "tiered_expr")
    (hprice : result.get "ModelPrice" = none)
    (hratio : result.get "ModelRatio" = ratio.map fun ratio => .plain (.number ratio))
    (hcompletion : result.get "CompletionRatio" = some (.plain (.number completion)))
    (hcache : result.get "CacheRatio" = some (.plain (.number cache)))
    (hcreate : result.get "CreateCacheRatio" = some (.plain (.number createCache)))
    (himage : result.get "ImageRatio" = some (.plain (.number image))) :
    result.prices acceptUnset =
      match ratio.or (if acceptUnset then some unsetModelRatio else none) with
      | some ratio => .ok (.ratios ratio completion cache createCache image)
      | none => .error .notConfigured := by
  have hnumber : Field.number (ratio.map fun ratio => Field.plain (.number ratio)) = ratio := by
    cases ratio <;> rfl
  unfold PricingValues.prices
  rw [if_neg hmode, hprice, hratio, hcompletion, hcache, hcreate, himage, hnumber]
  dsimp only [Field.number]
  cases ratio.or (if acceptUnset then some unsetModelRatio else none) <;> rfl

theorem effective_tiered (h : settings.Shown name (aliasedPricingValues values name))
    (hmode : settings.billingMode.get name ≠ some "")
    (htiered : getBillingMode settings name = "tiered_expr") :
    (effectiveModelPricing settings.selfUseModeEnabled values name).prices acceptUnset =
      tieredPrices (getBillingExpr settings name) := by
  have hshown := (shownMode_tiered_iff h hmode).mpr htiered
  unfold effectiveModelPricing
  unfold shownMode at hshown
  generalize aliasedPricingValues values name = result at h hshown ⊢
  dsimp only at hshown ⊢
  have hne : billingModeOption ≠ billingExprOption := by decide
  have hset : (result.set billingModeOption (.plain (.string "tiered_expr"))).get
      billingExprOption =
        (settings.billingExpr.get name).map fun expression => .plain (.string expression) := by
    rw [SortedMap.get_set_ne hne.symm, h.expression]
  rw [hshown, if_pos rfl]
  unfold getBillingExpr
  rw [if_pos htiered]
  refine prices_tiered ?_ ?_
  · rw [hset]
    cases settings.billingExpr.get name <;> cases getBuiltinBillingExpr name <;>
      simp [hne]
  · rw [hset]
    cases hstored : settings.billingExpr.get name <;> rw [hstored] at hset <;>
      cases getBuiltinBillingExpr name <;> simp_all

theorem effective_fixed {price : Float}
    (h : settings.Shown name (aliasedPricingValues values name))
    (hmode : settings.billingMode.get name ≠ some "")
    (htiered : getBillingMode settings name ≠ "tiered_expr")
    (hprice : settings.modelPrice.get (formatMatchingModelName name) = some price) :
    (effectiveModelPricing settings.selfUseModeEnabled values name).prices acceptUnset =
      .ok (.fixed price) := by
  have hshown := fun hshown => htiered ((shownMode_tiered_iff h hmode).mp hshown)
  unfold effectiveModelPricing
  unfold shownMode at hshown
  generalize aliasedPricingValues values name = result at h hshown ⊢
  dsimp only at hshown ⊢
  have hget := h.price
  rw [hprice] at hget
  rw [if_neg hshown, if_pos (by rw [hget]; rfl)]
  refine prices_fixed (fun htext => hshown ?_) hget
  rw [htext]
  rfl

theorem get_foldl_fallback {key : String} : ∀ {ratios : List (String × Float)}
    {result : PricingValues},
    (ratios.foldl (fun result (key, fallback) =>
      if (result.get key).isNone then result.set key (.plain (.number fallback)) else result)
      result).get key =
      (result.get key).or ((ratios.lookup key).map fun ratio => .plain (.number ratio)) := by
  intro ratios
  induction ratios with
  | nil =>
    intro result
    rw [List.foldl_nil, List.lookup_nil, Option.map_none, Option.or_none]
  | cons first rest ih =>
    intro result
    obtain ⟨own, fallback⟩ := first
    rw [List.foldl_cons, ih, List.lookup_cons]
    dsimp only
    by_cases hkey : key = own
    · subst hkey
      rw [beq_self_eq_true]
      cases hget : result.get key <;> simp [hget]
    · rw [beq_false_of_ne hkey]
      cases hget : result.get own <;> simp [hkey]

/-- The ratio of a model, if it has one or needs none. -/
def shownRatio (settings : Settings) (name : String) : Option Float :=
  if (getModelRatio settings name).2 then some (getModelRatio settings name).1 else none

theorem get_selfUse (h : settings.Shown name result) (key : String) :
    (if (result.get "ModelRatio").isNone ∧ settings.selfUseModeEnabled then
        result.set "ModelRatio" (.plain (.number unsetModelRatio)) else result).get key =
      if key = "ModelRatio" then
        (shownRatio settings name).map fun ratio => .plain (.number ratio)
      else result.get key := by
  have hratio := h.ratio
  unfold shownRatio getModelRatio
  cases hstored : settings.modelRatio.get (formatMatchingModelName name) with
  | some ratio =>
    rw [hstored] at hratio
    rw [if_neg (by rw [hratio]; simp)]
    by_cases hkey : key = "ModelRatio"
    · rw [if_pos hkey, hkey, hratio]
      rfl
    · rw [if_neg hkey]
  | none =>
    rw [hstored] at hratio
    cases settings.selfUseModeEnabled with
    | false =>
      rw [if_neg (by simp)]
      by_cases hkey : key = "ModelRatio"
      · rw [if_pos hkey, hkey, hratio]
        rfl
      · rw [if_neg hkey]
    | true =>
      rw [if_pos (by rw [hratio]; simp)]
      by_cases hkey : key = "ModelRatio"
      · rw [if_pos hkey, hkey, SortedMap.get_set_self]
        rfl
      · rw [if_neg hkey, SortedMap.get_set_ne hkey]

theorem ratio_or_unset {completion cache createCache image : Float} :
    (match (shownRatio settings name).or (if acceptUnset then some unsetModelRatio else none) with
      | some ratio => Except.ok (Prices.ratios ratio completion cache createCache image)
      | none => .error PriceFailure.notConfigured) =
      if (getModelRatio settings name).2 = false ∧ acceptUnset = false then
        .error .notConfigured
      else .ok (.ratios (getModelRatio settings name).1 completion cache createCache image) := by
  unfold shownRatio getModelRatio
  cases settings.modelRatio.get (formatMatchingModelName name) <;>
    cases settings.selfUseModeEnabled <;> cases acceptUnset <;> rfl

theorem effective_ratios (h : settings.Shown name (aliasedPricingValues values name))
    (hmode : settings.billingMode.get name ≠ some "")
    (htiered : getBillingMode settings name ≠ "tiered_expr")
    (hprice : settings.modelPrice.get (formatMatchingModelName name) = none) :
    (effectiveModelPricing settings.selfUseModeEnabled values name).prices acceptUnset =
      if (getModelRatio settings name).2 = false ∧ acceptUnset = false then .error .notConfigured
      else .ok (.ratios (getModelRatio settings name).1 (getCompletionRatio settings name)
        (getCacheRatio settings name) (getCreateCacheRatio settings name)
        (getImageRatio settings name)) := by
  have hshown := fun hshown => htiered ((shownMode_tiered_iff h hmode).mp hshown)
  unfold effectiveModelPricing
  unfold shownMode at hshown
  generalize aliasedPricingValues values name = result at h hshown ⊢
  dsimp only at hshown ⊢
  have hget := h.price
  rw [hprice] at hget
  rw [if_neg hshown, if_neg (by rw [hget]; simp)]
  have htext : Field.text (result.get billingModeOption) ≠ some "tiered_expr" := by
    intro htext
    apply hshown
    rw [htext]
    rfl
  have hcompletion : resolveCompletionRatio name (Field.number (result.get "CompletionRatio")) =
      getCompletionRatio settings name := by
    have hnumber : Field.number (result.get "CompletionRatio") =
        settings.completionRatio.get (formatMatchingModelName name) := by
      rw [h.completion]
      cases settings.completionRatio.get (formatMatchingModelName name) <;> rfl
    unfold getCompletionRatio resolveCompletionRatio
    dsimp only
    rw [hnumber, formatMatchingModelName_idem]
  have hself := get_selfUse h
  generalize (if (result.get "ModelRatio").isNone ∧ settings.selfUseModeEnabled then
    result.set "ModelRatio" (.plain (.number unsetModelRatio)) else result) = own at hself ⊢
  rw [hself "CompletionRatio", if_neg (by decide), hcompletion]
  have hown : ∀ key, key ≠ "CompletionRatio" → key ≠ "ModelRatio" →
      (own.set "CompletionRatio"
        (.plain (.number (getCompletionRatio settings name)))).get key = result.get key := by
    intro key hcompletion hratio
    rw [SortedMap.get_set_ne hcompletion, hself, if_neg hratio]
  have hratio : (own.set "CompletionRatio"
      (.plain (.number (getCompletionRatio settings name)))).get "ModelRatio" =
        (shownRatio settings name).map fun ratio => .plain (.number ratio) := by
    rw [SortedMap.get_set_ne (by decide), hself, if_pos rfl]
  have hfilled : (own.set "CompletionRatio"
      (.plain (.number (getCompletionRatio settings name)))).get "CompletionRatio" =
        some (.plain (.number (getCompletionRatio settings name))) := SortedMap.get_set_self
  generalize own.set "CompletionRatio"
    (.plain (.number (getCompletionRatio settings name))) = filled at hown hratio hfilled ⊢
  rw [← ratio_or_unset]
  refine prices_ratios ?_ ?_ ?_ ?_ ?_ ?_ ?_
  · intro hfield
    rw [get_foldl_fallback, hown _ (by decide) (by decide)] at hfield
    cases hmode : result.get billingModeOption with
    | none =>
      rw [hmode] at hfield
      cases hfield
    | some field =>
      rw [hmode] at hfield htext
      exact htext hfield
  · rw [get_foldl_fallback, hown _ (by decide) (by decide), hget]
    rfl
  · rw [get_foldl_fallback, hratio]
    cases shownRatio settings name <;> rfl
  · rw [get_foldl_fallback, hfilled]
    rfl
  · rw [get_foldl_fallback, hown _ (by decide) (by decide), h.cache]
    unfold getCacheRatio
    cases settings.cacheRatio.get name <;> rfl
  · rw [get_foldl_fallback, hown _ (by decide) (by decide), h.createCache]
    unfold getCreateCacheRatio
    cases settings.createCacheRatio.get name <;> rfl
  · rw [get_foldl_fallback, hown _ (by decide) (by decide), h.image]
    unfold getImageRatio
    cases settings.imageRatio.get name <;> rfl

end Kinds

/-! ### What is shown and what is charged -/

section Charged

variable {settings : Settings} {names : ModelNames} {info : RelayInfo} {values : PricingMaps}

/-- A request is charged the price that is shown for the name it is charged under. -/
theorem charged_eq_shown (hloaded : settings.LoadedFrom values)
    (hmode : settings.billingMode.get (info.getBillingModelName settings names) ≠ some "") :
    (modelPriceHelper settings names info).map Charge.prices =
      ((effectiveModelPricing settings.selfUseModeEnabled values
        (info.getBillingModelName settings names)).prices info.acceptUnsetRatioModel).map
          (·.forRequest info.imagePriceRatio) := by
  have hshown := hloaded.shown (info.getBillingModelName settings names)
  unfold modelPriceHelper
  generalize info.getBillingModelName settings names = name at hmode hshown ⊢
  dsimp only
  by_cases htiered : getBillingMode settings name = "tiered_expr"
  · rw [if_pos htiered, effective_tiered hshown hmode htiered]
    cases getBillingExpr settings name <;> rfl
  · rw [if_neg htiered]
    cases hprice : settings.modelPrice.get (formatMatchingModelName name) with
    | some price =>
      rw [effective_fixed hshown hmode htiered hprice]
      unfold getModelPrice
      rw [hprice]
      rfl
    | none =>
      rw [effective_ratios hshown hmode htiered hprice]
      unfold getModelPrice
      rw [hprice]
      by_cases hunset :
          (getModelRatio settings name).2 = false ∧ info.acceptUnsetRatioModel = false
      · rw [if_neg Bool.false_ne_true, if_pos hunset, if_pos hunset]
        rfl
      · rw [if_neg Bool.false_ne_true, if_neg hunset, if_neg hunset]
        rfl

end Charged

/-! ### A model with a ratio -/

def oneRatio : Settings where
  modelPrice := .empty
  modelRatio := .set .empty "gpt-5" 0.625
  completionRatio := .empty
  cacheRatio := .empty
  createCacheRatio := .empty
  imageRatio := .empty
  audioRatio := .empty
  audioCompletionRatio := .empty
  billingMode := .empty
  billingExpr := .empty
  selfUseModeEnabled := false

def oneRatioMaps : PricingMaps :=
  Function.update (fun _ => .empty) "ModelRatio" (.set .empty "gpt-5" (.number 0.625))

def plainNames : ModelNames where
  hasModifiers name := name == "gpt-5@temperature:0.5"
  canonicalBillingModelNames _ := []
  baseModelName name := if name = "gpt-5@temperature:0.5" then "gpt-5" else name

def requestOf (name : String) : RelayInfo where
  originModelName := name
  billingModelName := ""
  acceptUnsetRatioModel := false
  imagePriceRatio := 0

theorem oneRatio_loadedFrom : oneRatio.LoadedFrom oneRatioMaps where
  modelPrice _ := rfl
  modelRatio name := by
    show (SortedMap.empty.set "gpt-5" (Value.number 0.625)).get name =
      ((SortedMap.empty.set "gpt-5" 0.625).get name).map Value.number
    by_cases hname : name = "gpt-5"
    · rw [hname, SortedMap.get_set_self, SortedMap.get_set_self]
      rfl
    · rw [SortedMap.get_set_ne hname, SortedMap.get_set_ne hname]
      rfl
  completionRatio _ := rfl
  cacheRatio _ := rfl
  createCacheRatio _ := rfl
  imageRatio _ := rfl
  billingMode _ := rfl
  billingExpr _ := rfl

theorem charged_eq_shown_gpt5 :
    (modelPriceHelper oneRatio plainNames (requestOf "gpt-5@temperature:0.5")).map Charge.prices =
      ((effectiveModelPricing false oneRatioMaps
        ((requestOf "gpt-5@temperature:0.5").getBillingModelName oneRatio plainNames)).prices
          false).map (·.forRequest 0) :=
  charged_eq_shown oneRatio_loadedFrom (by rw [show oneRatio.billingMode = .empty from rfl]; simp)

/-- A name with a modifier is shown without a price, and charged the price of its model. -/
theorem modifier_charged_not_shown :
    (effectiveModelPricing false oneRatioMaps "gpt-5@temperature:0.5").prices false =
        .error .notConfigured ∧
      ∃ completion cache cacheCreation image,
        (modelPriceHelper oneRatio plainNames (requestOf "gpt-5@temperature:0.5")).map
          Charge.prices = .ok (.ratios 0.625 completion cache cacheCreation image) := by
  have hunmoded : ∀ name, oneRatio.billingMode.get name ≠ some "" := fun _ => by
    rw [show oneRatio.billingMode = .empty from rfl]
    simp
  constructor
  · have hmode : getBillingMode oneRatio "gpt-5@temperature:0.5" ≠ "tiered_expr" := by decide +kernel
    refine (effective_ratios (oneRatio_loadedFrom.shown _) (hunmoded _) hmode rfl).trans ?_
    rw [if_pos ⟨by decide +kernel, rfl⟩]
  · exact ⟨_, _, _, _, rfl⟩

end JulongApi.ModelPricing
