/-
The prices that are shown and the prices that are charged: `effectiveModelPricing` in
`model/model_pricing_config.go` and `ModelPriceHelper` in `relay/helper/price.go`, with the lookups of
`setting/ratio_setting` and `setting/billing_setting`.

A charge is the price of a model before the group of its user and the size of its request count: the
quota that is reserved, the ratios of the group and the run of an expression are left out.
-/
import JulongApi.ModelPricing

namespace JulongApi.ModelPricing

/-! ### Names -/

def handleThinkingBudgetModel (name start wildcard : String) : String :=
  if hasPrefix name start && contains name "-thinking-" then wildcard else name

def formatMatchingModelName (name : String) : String :=
  let name :=
    if hasPrefix name "gemini-2.5-flash-lite" then
      handleThinkingBudgetModel name "gemini-2.5-flash-lite" "gemini-2.5-flash-lite-thinking-*"
    else if hasPrefix name "gemini-2.5-flash" then
      handleThinkingBudgetModel name "gemini-2.5-flash" "gemini-2.5-flash-thinking-*"
    else if hasPrefix name "gemini-2.5-pro" then
      handleThinkingBudgetModel name "gemini-2.5-pro" "gemini-2.5-pro-thinking-*"
    else name
  let name := if hasPrefix name "gpt-4-gizmo" then "gpt-4-gizmo-*" else name
  if hasPrefix name "gpt-4o-gizmo" then "gpt-4o-gizmo-*" else name

/-! ### Completion ratios -/

/-- Go divides two constants before it rounds: its `3.5 / 0.15` is `70 / 3`, its `2.5 / 0.3` is
`25 / 3`. -/
def hardcodedGeminiRatio (name : String) : Float × Bool :=
  if hasPrefix name "gemini-1.5" then (4, true)
  else if hasPrefix name "gemini-2.0" then (4, true)
  else if hasPrefix name "gemini-2.5-pro" then (8, false)
  else if hasPrefix name "gemini-2.5-flash" then
    if hasPrefix name "gemini-2.5-flash-preview" then (70 / 3, false)
    else if hasPrefix name "gemini-2.5-flash-lite" then (4, false)
    else (25 / 3, false)
  else if hasPrefix name "gemini-robotics-er-1.5" then (25 / 3, false)
  else if hasPrefix name "gemini-3-pro" then
    if hasPrefix name "gemini-3-pro-image" then (60, false) else (6, false)
  else (4, false)

def hardcodedGptRatio (name : String) : Float × Bool :=
  if hasPrefix name "gpt-4o" then
    if name = "gpt-4o-2024-05-13" then (3, true)
    else if hasPrefix name "gpt-4o-mini-tts" then (20, false)
    else (4, false)
  else if hasPrefix name "gpt-5" then
    if !contains name "." then (8, true)
    else if hasPrefix name "gpt-5.4" then
      if hasPrefix name "gpt-5.4-nano" then (6.25, true) else (6, true)
    else (6, false)
  else if hasPrefix name "gpt-4.5-preview" then (2, true)
  else if hasPrefix name "gpt-4-turbo" || hasSuffix name "gpt-4-1106" ||
      hasSuffix name "gpt-4-1105" then
    (3, true)
  else (2, false)

/-- `getHardcodedCompletionModelRatio`: the ratio, and whether no configuration overrides it.  The
branch of the source for names that start with `gpt-3.5` comes after the one for `gpt-`, and is not
reached. -/
def getHardcodedCompletionModelRatio (name : String) : Float × Bool :=
  if hasSuffix name "-all" || hasSuffix name "-gizmo-*" then (2, false)
  else if hasPrefix name "gpt-" then hardcodedGptRatio name
  else if hasPrefix name "o1" || hasPrefix name "o3" then (4, true)
  else if name = "chatgpt-4o-latest" then (3, true)
  else if contains name "claude-3" then (5, true)
  else if contains name "claude-sonnet-4" || contains name "claude-opus-4" ||
      contains name "claude-haiku-4" then
    (5, true)
  else if hasPrefix name "gpt-3.5" then
    if name = "gpt-3.5-turbo" || hasSuffix name "0125" then (3, true)
    else if hasSuffix name "1106" then (2, true)
    else (4 / 3, true)
  else if hasPrefix name "mistral-" then (3, true)
  else if hasPrefix name "gemini-" then hardcodedGeminiRatio name
  else if hasPrefix name "command" then
    if name = "command-r" then (3, true)
    else if name = "command-r-plus" then (5, true)
    else if name = "command-r-08-2024" then (4, true)
    else if name = "command-r-plus-08-2024" then (4, true)
    else (4, false)
  else if hasPrefix name "ERNIE-Speed-" then (2, true)
  else if hasPrefix name "ERNIE-Lite-" then (2, true)
  else if hasPrefix name "ERNIE-Character" then (2, true)
  else if hasPrefix name "ERNIE-Functions" then (2, true)
  -- `0.8 / 0.64` and `0.79 / 0.59`
  else if name = "llama2-70b-4096" then (5 / 4, true)
  else if name = "llama3-8b-8192" then (2, true)
  else if name = "llama3-70b-8192" then (79 / 59, true)
  else (1, false)

def resolveCompletionRatio (name : String) (configured : Option Float) : Float :=
  let name := formatMatchingModelName name
  let (hardCodedRatio, locked) := getHardcodedCompletionModelRatio name
  match configured with
  | some ratio => if contains name "/" then ratio else if locked then hardCodedRatio else ratio
  | none => hardCodedRatio

/-! ### The settings of the relay -/

/-- The option maps as a node keeps them. -/
structure Settings where
  modelPrice : Object Float
  modelRatio : Object Float
  completionRatio : Object Float
  cacheRatio : Object Float
  createCacheRatio : Object Float
  imageRatio : Object Float
  audioRatio : Object Float
  audioCompletionRatio : Object Float
  billingMode : Object String
  billingExpr : Object String
  selfUseModeEnabled : Bool

def defaultCacheRatio : Float := 1.0

def defaultCreateCacheRatio : Float := 1.25

def defaultImageRatio : Float := 1.0

def unsetModelRatio : Float := 37.5

section Lookups

variable (settings : Settings) (name : String)

/-- `GetModelPrice`: -1 and false if there is none. -/
def getModelPrice : Float × Bool :=
  match settings.modelPrice.get (formatMatchingModelName name) with
  | some price => (price, true)
  | none => (-1, false)

def getModelRatio : Float × Bool :=
  match settings.modelRatio.get (formatMatchingModelName name) with
  | some ratio => (ratio, true)
  | none => (unsetModelRatio, settings.selfUseModeEnabled)

def hasConfiguredModelRatio : Bool :=
  (settings.modelRatio.get (formatMatchingModelName name)).isSome

def getCompletionRatio : Float :=
  let name := formatMatchingModelName name
  resolveCompletionRatio name (settings.completionRatio.get name)

def getCacheRatio : Float := (settings.cacheRatio.get name).getD defaultCacheRatio

def getCreateCacheRatio : Float := (settings.createCacheRatio.get name).getD defaultCreateCacheRatio

def getImageRatio : Float := (settings.imageRatio.get name).getD defaultImageRatio

def getAudioRatio : Float := (settings.audioRatio.get (formatMatchingModelName name)).getD 1

def getAudioCompletionRatio : Float :=
  (settings.audioCompletionRatio.get (formatMatchingModelName name)).getD 1

def getBillingMode : String :=
  match settings.billingMode.get name with
  | some mode => mode
  | none =>
    if (getBuiltinBillingExpr name).isSome then
      if hasConfiguredModelRatio settings name then "ratio"
      else if (getModelPrice settings name).2 then "ratio"
      else "tiered_expr"
    else "ratio"

def getBillingExpr : Option String :=
  match settings.billingExpr.get name with
  | some expression => some expression
  | none =>
    if getBillingMode settings name = "tiered_expr" then getBuiltinBillingExpr name else none

def hasPriceOrRatioEntry : Bool :=
  let formatted := formatMatchingModelName name
  (getModelPrice settings formatted).2 || hasConfiguredModelRatio settings formatted ||
    getBillingMode settings formatted == "tiered_expr"

end Lookups

/-! ### The relay -/

/-- What the names of models say about reasoning, by the settings of a node. -/
structure ModelNames where
  /-- `ParseModelModifiers(name).HasModifiers()` -/
  hasModifiers : String → Bool
  canonicalBillingModelNames : String → List String
  baseModelName : String → String

def resolveBillingModelName (settings : Settings) (names : ModelNames) (origin : String) : String :=
  let base := names.baseModelName origin
  let candidates := (if names.hasModifiers origin then [] else [origin]) ++
    names.canonicalBillingModelNames origin ++ [base]
  (candidates.find? fun name => name ≠ "" && hasPriceOrRatioEntry settings name).getD base

structure RelayInfo where
  originModelName : String
  /-- set if the request is tried again -/
  billingModelName : String
  acceptUnsetRatioModel : Bool
  /-- `meta.ImagePriceRatio` -/
  imagePriceRatio : Float

def RelayInfo.getBillingModelName (settings : Settings) (names : ModelNames) (info : RelayInfo) :
    String :=
  let resolved := resolveBillingModelName settings names info.originModelName
  if resolved ≠ "" ∧ resolved ≠ info.originModelName then resolved
  else if info.billingModelName ≠ "" then info.billingModelName
  else info.originModelName

structure PriceData where
  modelPrice : Float
  usePrice : Bool
  modelRatio : Float := 0
  completionRatio : Float := 0
  cacheRatio : Float := 0
  cacheCreationRatio : Float := 0
  cacheCreation5mRatio : Float := 0
  cacheCreation1hRatio : Float := 0
  imageRatio : Float := 0
  audioRatio : Float := 0
  audioCompletionRatio : Float := 0

inductive Charge where
  /-- the expression of `TieredBillingSnapshot` -/
  | tiered (expression : String)
  | plain (data : PriceData)

inductive PriceFailure where
  /-- `modelPriceNotConfiguredError` -/
  | notConfigured
  /-- `configured as tiered_expr but has no billing expression` -/
  | noExpression

/-- `6 / 3.75`. -/
def claudeCacheCreation1hMultiplier : Float := 8 / 5

def modelPriceHelper (settings : Settings) (names : ModelNames) (info : RelayInfo) :
    Except PriceFailure Charge :=
  let name := info.getBillingModelName settings names
  let (modelPrice, usePrice) := getModelPrice settings name
  if getBillingMode settings name = "tiered_expr" then
    match getBillingExpr settings name with
    | some expression => .ok (.tiered expression)
    | none => .error .noExpression
  else if usePrice then
    .ok (.plain {
      usePrice := true
      modelPrice :=
        if info.imagePriceRatio != 0 then modelPrice * info.imagePriceRatio else modelPrice })
  else
    let (modelRatio, success) := getModelRatio settings name
    if success = false ∧ info.acceptUnsetRatioModel = false then .error .notConfigured
    else
      let cacheCreationRatio := getCreateCacheRatio settings name
      .ok (.plain {
        usePrice := false
        modelPrice := modelPrice
        modelRatio := modelRatio
        completionRatio := getCompletionRatio settings name
        cacheRatio := getCacheRatio settings name
        cacheCreationRatio := cacheCreationRatio
        cacheCreation5mRatio := cacheCreationRatio
        cacheCreation1hRatio := cacheCreationRatio * claudeCacheCreation1hMultiplier
        imageRatio := getImageRatio settings name
        audioRatio := getAudioRatio settings name
        audioCompletionRatio := getAudioCompletionRatio settings name })

/-! ### The display -/

def aliasOptions : List String :=
  ["ModelPrice", "ModelRatio", "CompletionRatio", "AudioRatio", "AudioCompletionRatio"]

/-- The values of a model, with those of its alias. -/
def aliasedPricingValues (values : PricingMaps) (name : String) : PricingValues :=
  let own := formatMatchingModelName name
  aliasOptions.foldl (fun result key =>
    match (values key).get own with
    | some value => (result.delete key).set key (.plain value)
    | none => result.delete key) (modelPricingValues values name)

def Field.text : Option Field → Option String
  | some (.plain (.string text)) => some text
  | _ => none

def Field.number : Option Field → Option Float
  | some (.plain (.number number)) => some number
  | _ => none

def fallbackRatios : List (String × Float) := [
  ("CacheRatio", defaultCacheRatio), ("CreateCacheRatio", defaultCreateCacheRatio),
  ("ImageRatio", defaultImageRatio)]

def effectiveModelPricing (selfUseModeEnabled : Bool) (values : PricingMaps) (name : String) :
    PricingValues :=
  let result := aliasedPricingValues values name
  let mode := (Field.text (result.get billingModeOption)).getD ""
  let mode :=
    if mode = "" ∧ (getBuiltinBillingExpr name).isSome ∧ (result.get "ModelPrice").isNone ∧
        (result.get "ModelRatio").isNone then
      "tiered_expr"
    else mode
  if mode = "tiered_expr" then
    let result := result.set billingModeOption (.plain (.string mode))
    match result.get billingExprOption, getBuiltinBillingExpr name with
    | none, some expression => result.set billingExprOption (.plain (.string expression))
    | _, _ => result
  else if (result.get "ModelPrice").isSome then result
  else
    let result :=
      if (result.get "ModelRatio").isNone ∧ selfUseModeEnabled then
        result.set "ModelRatio" (.plain (.number unsetModelRatio))
      else result
    let ratio := resolveCompletionRatio name (Field.number (result.get "CompletionRatio"))
    fallbackRatios.foldl (fun result (key, fallback) =>
      if (result.get key).isNone then result.set key (.plain (.number fallback)) else result)
      (result.set "CompletionRatio" (.plain (.number ratio)))

end JulongApi.ModelPricing
