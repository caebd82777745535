/-
What a text request is charged, and what it would have been: `service/text_quota.go`.

`calculateTextQuotaSummary` prices a usage, by token ratios or at a fixed price, and reports
beside the quota what the request would have cost without the token adjustment of its model,
without the special ratio of its group, and without both.

Ratios are rationals as in `Pricing`, and so is the one price that the source works out in
float64s (`calcOpenRouterCacheCreateTokens`).  A token count is an integer.  The audit and the
ratios that a summary copies for the log are left out.
-/
import JulongApi.Pricing
import JulongApi.Strings
import JulongApi.Usage

namespace JulongApi.TextQuota

/-- `decimal.Div` keeps sixteen digits. -/
def decimalDiv (a b : ℚ) : ℚ := roundHalfAway (a / b * 10 ^ 16) / 10 ^ 16

/-! ### The price data of a request -/

/-- `ModelTokenAdjustment`, with the two fields that only a text price reads. -/
structure TokenAdjustment extends ModelTokenAdjustment where
  cacheRead : Option ℚ
  cacheCreation : Option ℚ
deriving DecidableEq

namespace TokenAdjustment

/-- `ModelTokenAdjustment{}`. -/
def none : TokenAdjustment := ⟨⟨.none, .none⟩, .none, .none⟩

def hasAny (a : TokenAdjustment) : Bool :=
  a.input.isSome || a.output.isSome || a.cacheRead.isSome || a.cacheCreation.isSome

def cacheReadMultiplier (a : TokenAdjustment) : ℚ := modelTokenMultiplier a.cacheRead

def cacheCreationMultiplier (a : TokenAdjustment) : ℚ := modelTokenMultiplier a.cacheCreation

end TokenAdjustment

structure GroupRatioInfo where
  groupRatio : ℚ
  /-- The ratio of the group itself, where `groupRatio` is one set for a user's group. -/
  pricingGroupRatio : ℚ
  hasSpecialRatio : Bool
deriving DecidableEq

structure PriceData where
  modelPrice : ℚ
  modelRatio : ℚ
  completionRatio : ℚ
  cacheRatio : ℚ
  cacheCreationRatio : ℚ
  cacheCreation5mRatio : ℚ
  cacheCreation1hRatio : ℚ
  imageRatio : ℚ
  usePrice : Bool
  groupRatioInfo : GroupRatioInfo
  modelTokenAdjustment : TokenAdjustment
  /-- The values of `otherRatios`, in any order. -/
  otherRatios : List ℚ
deriving DecidableEq

namespace PriceData

def applyOtherRatiosToDecimal (p : PriceData) (value : ℚ) : ℚ :=
  p.otherRatios.foldl (fun value ratio => if 0 < ratio ∧ ratio ≠ 1 then value * ratio else value)
    value

def hasGroupSpecialRatio (p : PriceData) : Bool :=
  p.groupRatioInfo.hasSpecialRatio && decide (0 ≤ p.groupRatioInfo.pricingGroupRatio)

end PriceData

/-! ### The settings -/

structure ToolPriceIndex where
  defaults : String → Option ℚ
  /-- The model prefixes that have a price of their own, the longest first. -/
  prefixes : String → List (String × ℚ)

/-- `GetToolPriceForModel`: the first prefix that fits, then the tool's default, then 0. -/
def ToolPriceIndex.getToolPriceForModel (idx : ToolPriceIndex) (toolName modelName : String) : ℚ :=
  let entry := if modelName = "" then none
    else (idx.prefixes toolName).find? fun entry => hasPrefix modelName entry.1
  match entry with
  | some entry => entry.2
  | none => (idx.defaults toolName).getD 0

/-- What a price is looked up in. -/
structure Settings where
  toolPrices : ToolPriceIndex
  getDefaultModelRatio : String → Option ℚ
  quotaPerUnit : ℚ

def getGeminiInputAudioPricePerMillionTokens (modelName : String) : ℚ :=
  if hasPrefix modelName "gemini-2.5-flash-preview-native-audio" then 3
  else if hasPrefix modelName "gemini-2.5-flash-preview-lite" then 1 / 2
  else if hasPrefix modelName "gemini-2.5-flash-preview" then 1
  else if hasPrefix modelName "gemini-2.5-flash" then 1
  else if hasPrefix modelName "gemini-2.0-flash" then 7 / 10
  else if hasPrefix modelName "gemini-robotics-er-1.5" then 1
  else 0

def hasCustomModelRatio (settings : Settings) (modelName : String) (currentRatio : ℚ) : Bool :=
  match settings.getDefaultModelRatio modelName with
  | none => true
  | some defaultRatio => decide (currentRatio ≠ defaultRatio)

/-! ### The request -/

def relayFormatClaude : String := "claude"

def channelTypeOpenRouter : Int := 20

inductive RelayMode where
  | responses
  | other
deriving DecidableEq, Repr

structure RelayInfo where
  originModelName : String
  billingModelName : String
  priceData : PriceData
  estimatePromptTokens : Int
  relayFormat : String
  finalRequestRelayFormat : String
  requestConversionChain : List String
  relayMode : RelayMode
  /-- `ChannelMeta.ChannelType`, where there is a channel. -/
  channelType : Option Int
  /-- `ResponsesUsageInfo.BuiltInTools`: the tools and the calls counted for each. -/
  builtInTools : Option (List (String × Option Int))
  quotaClamp : Option QuotaClamp

namespace RelayInfo

def getBillingModelName (info : RelayInfo) : String :=
  if info.billingModelName ≠ "" then info.billingModelName else info.originModelName

def getFinalRequestRelayFormat (info : RelayInfo) : String :=
  if info.finalRequestRelayFormat ≠ "" then info.finalRequestRelayFormat
  else info.requestConversionChain.getLast?.getD info.relayFormat

end RelayInfo

/-- What the function reads of `gin.Context`. -/
structure Context where
  claudeWebSearchRequests : Int
  geminiGoogleSearchCall : Bool

def usageSemanticFromUsage (info : RelayInfo) (usage : Option Dto.Usage) : String :=
  match usage.filter fun usage => usage.usageSemantic ≠ "" with
  | some usage => usage.usageSemantic
  | none =>
    if info.getFinalRequestRelayFormat = relayFormatClaude then "anthropic" else "openai"

def isLegacyClaudeDerivedOpenAIUsage (info : RelayInfo) (usage : Dto.Usage) : Bool :=
  if info.getFinalRequestRelayFormat = relayFormatClaude then false
  else if usage.usageSource ≠ "" ∨ usage.usageSemantic ≠ "" then false
  else decide (0 < usage.claudeCacheCreation5mTokens ∨ 0 < usage.claudeCacheCreation1hTokens)

/-! ### Tool calls -/

structure ToolSurchargeItem where
  name : String
  count : Int
  price : ℚ
deriving DecidableEq

def maxBillableToolCallCount : Int := 10000

def maxInt : Int := 2 ^ 63 - 1

def collectToolSurchargeItem (settings : Settings) (items : List ToolSurchargeItem)
    (name : String) (count : Int) (modelName : String) : List ToolSurchargeItem :=
  if count ≤ 0 then items
  else
    let price := settings.toolPrices.getToolPriceForModel name modelName
    if price ≤ 0 then items else items ++ [⟨name, count, price⟩]

/-- Neighbours of one name and price become one item. -/
def mergeNeighbours : List ToolSurchargeItem → List ToolSurchargeItem
  | [] => []
  | item :: rest =>
    match mergeNeighbours rest with
    | [] => [item]
    | next :: merged =>
      if next.name = item.name ∧ next.price = item.price then
        { item with count := min maxInt (item.count + next.count) } :: merged
      else item :: next :: merged

def mergeToolSurchargeItems (items : List ToolSurchargeItem) : List ToolSurchargeItem :=
  mergeNeighbours (items.insertionSort fun a b => a.name < b.name ∨ a.name = b.name ∧ a.price ≤ b.price)

/-- The billed tools of `calculateTextToolCallSurchargeBase`. -/
def toolSurchargeItems (settings : Settings) (ctx : Context) (info : RelayInfo) :
    List ToolSurchargeItem :=
  let modelName := info.getBillingModelName
  let builtIn := (info.builtInTools.getD []).foldl
    (fun items tool =>
      match tool.2 with
      | none => items
      | some count =>
        collectToolSurchargeItem settings items tool.1 (min count maxBillableToolCallCount)
          modelName)
    []
  let preview :=
    if info.relayMode ≠ .responses ∧ hasSuffix modelName "search-preview" then
      collectToolSurchargeItem settings builtIn "web_search_preview" 1 modelName
    else builtIn
  let web := collectToolSurchargeItem settings preview "web_search"
    (min ctx.claudeWebSearchRequests maxBillableToolCallCount) modelName
  mergeToolSurchargeItems
    (if ctx.geminiGoogleSearchCall then
      collectToolSurchargeItem settings web "google_search" 1 modelName
    else web)

/-- `calculateTextToolCallSurchargeBase`: what the items cost before any group ratio. -/
def calculateTextToolCallSurchargeBase (settings : Settings) (items : List ToolSurchargeItem) : ℚ :=
  items.foldl
    (fun surcharge item =>
      surcharge + decimalDiv (item.price * item.count) 1000 * settings.quotaPerUnit)
    0

/-! ### Tokens -/

structure TextTokens where
  promptTokens : Int
  completionTokens : Int
  totalTokens : Int
  cacheTokens : Int
  cacheCreationTokens : Int
  cacheCreationTokens5m : Int
  cacheCreationTokens1h : Int
  imageTokens : Int
  audioTokens : Int
  usageSemantic : String
  legacyClaudeDerived : Bool
deriving DecidableEq, Repr

def TextTokens.isClaudeUsageSemantic (tokens : TextTokens) : Bool :=
  tokens.usageSemantic = "anthropic"

/-- `CalcOpenRouterCacheCreateTokens`; `-1` is a count that cannot be. -/
def calcOpenRouterCacheCreateTokens (settings : Settings) (usage : Dto.Usage) (p : PriceData) :
    Int :=
  if p.cacheCreationRatio = 1 then 0
  else
    let quotaPrice := p.modelRatio / settings.quotaPerUnit
    let promptCacheCreatePrice := quotaPrice * p.cacheCreationRatio
    let promptCacheReadPrice := quotaPrice * p.cacheRatio
    let completionPrice := quotaPrice * p.completionRatio
    let cost := match usage.cost with
      | .float64 v => v
      | _ => 0
    -- Dividing by zero gives an infinity or no number, and neither is a quota.
    if promptCacheCreatePrice - quotaPrice = 0 then -1
    else
      let value := (cost - usage.promptTokens * quotaPrice +
        usage.promptTokensDetails.cachedTokens * (quotaPrice - promptCacheReadPrice) -
        usage.completionTokens * completionPrice) / (promptCacheCreatePrice - quotaPrice)
      match saturateQuota (roundHalfAway value) "QuotaRound" with
      | (quota, none) => quota
      | (_, some _) => -1

/-- The counts of a usage, after OpenRouter's have had their cache taken out of the prompt. -/
def textTokens (settings : Settings) (info : RelayInfo) (reported : Option Dto.Usage) :
    TextTokens :=
  let usage := reported.getD { promptTokens := info.estimatePromptTokens }
  let tokens : TextTokens :=
    { promptTokens := usage.promptTokens
      completionTokens := usage.completionTokens
      totalTokens := usage.promptTokens + usage.completionTokens
      cacheTokens := usage.promptTokensDetails.cachedTokens
      cacheCreationTokens := usage.promptTokensDetails.cacheCreationTokensTotal
      cacheCreationTokens5m := usage.claudeCacheCreation5mTokens
      cacheCreationTokens1h := usage.claudeCacheCreation1hTokens
      imageTokens := usage.promptTokensDetails.imageTokens
      audioTokens := usage.promptTokensDetails.audioTokens
      usageSemantic := usageSemanticFromUsage info reported
      legacyClaudeDerived := isLegacyClaudeDerivedOpenAIUsage info usage }
  if info.channelType = some channelTypeOpenRouter ∧ tokens.isClaudeUsageSemantic = true then
    let promptTokens := tokens.promptTokens - tokens.cacheTokens
    let isUsingCustomSettings := info.priceData.usePrice ||
      hasCustomModelRatio settings info.getBillingModelName info.priceData.modelRatio
    -- An `any` differs from the integer 0 whenever it holds anything else.
    let created := calcOpenRouterCacheCreateTokens settings usage info.priceData
    let cacheCreationTokens :=
      if tokens.cacheCreationTokens = 0 ∧ info.priceData.cacheCreationRatio ≠ 1 ∧
          usage.cost ≠ .int 0 ∧ isUsingCustomSettings = false ∧
          0 ≤ created ∧ created ≤ promptTokens then
        created
      else tokens.cacheCreationTokens
    { tokens with
      promptTokens := promptTokens - cacheCreationTokens
      cacheCreationTokens := cacheCreationTokens }
  else tokens

/-! ### The price by tokens -/

/-- The tokens of each category, weighted by its ratio but not yet adjusted. -/
structure TokenBases where
  baseTokens : ℚ
  cachedTokensBase : ℚ
  cachedCreationTokensBase : ℚ
  imageTokensWithRatio : ℚ
  audioInputPrice : ℚ
  audioInputQuotaBase : ℚ
deriving DecidableEq

def tokenBases (settings : Settings) (p : PriceData) (modelName : String) (t : TextTokens) :
    TokenBases :=
  -- Claude's prompt tokens, and those derived from them, leave the cache out already.
  let promptIncludesCache := !t.isClaudeUsageSemantic && !t.legacyClaudeDerived
  let baseTokens : ℚ := t.promptTokens
  let (baseTokens, cachedTokensBase) : ℚ × ℚ :=
    if t.cacheTokens ≠ 0 then
      (if promptIncludesCache then baseTokens - t.cacheTokens else baseTokens,
        t.cacheTokens * p.cacheRatio)
    else (baseTokens, 0)
  let hasSplitCacheCreationTokens :=
    decide (0 < t.cacheCreationTokens5m ∨ 0 < t.cacheCreationTokens1h)
  let (baseTokens, cachedCreationTokensBase) : ℚ × ℚ :=
    if t.cacheCreationTokens ≠ 0 ∨ hasSplitCacheCreationTokens = true then
      if promptIncludesCache then
        (baseTokens - t.cacheCreationTokens, t.cacheCreationTokens * p.cacheCreationRatio)
      else
        let remaining :=
          max 0 (t.cacheCreationTokens - t.cacheCreationTokens5m - t.cacheCreationTokens1h)
        (baseTokens, remaining * p.cacheCreationRatio +
          t.cacheCreationTokens5m * p.cacheCreation5mRatio +
          t.cacheCreationTokens1h * p.cacheCreation1hRatio)
    else (baseTokens, 0)
  let (baseTokens, imageTokensWithRatio) : ℚ × ℚ :=
    if t.imageTokens ≠ 0 then (baseTokens - t.imageTokens, t.imageTokens * p.imageRatio)
    else (baseTokens, 0)
  let audioInputPrice :=
    if t.audioTokens ≠ 0 then getGeminiInputAudioPricePerMillionTokens modelName else 0
  let (baseTokens, audioInputQuotaBase) : ℚ × ℚ :=
    if 0 < audioInputPrice then
      (baseTokens - t.audioTokens,
        decimalDiv audioInputPrice 1000000 * t.audioTokens * settings.quotaPerUnit)
    else (baseTokens, 0)
  { baseTokens := if baseTokens < 0 then 0 else baseTokens
    cachedTokensBase
    cachedCreationTokensBase
    imageTokensWithRatio
    audioInputPrice
    audioInputQuotaBase }

def quotaBeforeGroup (p : PriceData) (t : TextTokens) (bases : TokenBases) : ℚ :=
  let a := p.modelTokenAdjustment
  let promptQuota := bases.baseTokens * a.inputMultiplier +
    bases.cachedTokensBase * a.cacheReadMultiplier + bases.imageTokensWithRatio +
    bases.cachedCreationTokensBase * a.cacheCreationMultiplier
  let completionQuota := t.completionTokens * p.completionRatio * a.outputMultiplier
  (promptQuota + completionQuota) * p.modelRatio

/-- `quotaBeforeGroupWithoutModelAdjustment`, as it is where the model has an adjustment. -/
def quotaBeforeGroupWithoutModelAdjustment (p : PriceData) (t : TextTokens) (bases : TokenBases) :
    ℚ :=
  let promptQuota := bases.baseTokens + bases.cachedTokensBase + bases.imageTokensWithRatio +
    bases.cachedCreationTokensBase
  let completionQuota := t.completionTokens * p.completionRatio
  (promptQuota + completionQuota) * p.modelRatio

/-- Group ratio, other ratios and tools, in the order every price takes them. -/
def chargeWith (p : PriceData) (beforeGroup audioInputQuotaBase surchargeBase groupRatio : ℚ) : ℚ :=
  p.applyOtherRatiosToDecimal (beforeGroup * groupRatio + audioInputQuotaBase * groupRatio) +
    surchargeBase * groupRatio

/-! ### The summary -/

def finalizeTextQuota (quota ratio : ℚ) (billable : Bool) : Int × Option QuotaClamp :=
  let checked := quotaFromDecimalChecked quota
  if billable = false then (0, checked.2)
  else if ratio ≠ 0 ∧ checked.1 ≤ 0 then (1, checked.2)
  else checked

def hasBillableUsage (fixedPriceBilling : Bool) (totalTokens : Int) (toolCallSurchargeQuota : ℚ) :
    Bool :=
  fixedPriceBilling || decide (0 < totalTokens) || decide (toolCallSurchargeQuota ≠ 0)

structure BillingRevenueCounterfactuals where
  withoutGroupSpecialRatio : Option Int := none
  withoutModelTokenAdjustment : Option Int := none
  originalQuota : Option Int := none
deriving DecidableEq, Repr

structure TextQuotaSummary where
  modelName : String
  tokens : TextTokens
  quota : Int
  audioInputPrice : ℚ
  toolSurchargeItems : List ToolSurchargeItem
  toolCallSurchargeBase : ℚ
  toolCallSurchargeQuota : ℚ
  billingCounterfactuals : BillingRevenueCounterfactuals
  /-- `RelayInfo.QuotaClamp`, afterwards. -/
  quotaClamp : Option QuotaClamp

/-- `noteQuotaClamp`: the first clamp wins. -/
def noteQuotaClamp (noted clamp : Option QuotaClamp) : Option QuotaClamp := noted <|> clamp

/-- The counterfactuals of a price by tokens. -/
def ratioCounterfactuals (p : PriceData) (t : TextTokens) (bases : TokenBases)
    (surchargeBase : ℚ) (billable : Bool) : BillingRevenueCounterfactuals :=
  let groupRatio := p.groupRatioInfo.groupRatio
  let pricingGroupRatio := p.groupRatioInfo.pricingGroupRatio
  let before := quotaBeforeGroup p t bases
  let hasAny := p.modelTokenAdjustment.hasAny
  let beforeWithoutModelAdjustment :=
    if hasAny then quotaBeforeGroupWithoutModelAdjustment p t bases else before
  let originalGroupRatio := if p.hasGroupSpecialRatio then pricingGroupRatio else groupRatio
  { withoutModelTokenAdjustment :=
      if hasAny then
        some (finalizeTextQuota
          (chargeWith p beforeWithoutModelAdjustment bases.audioInputQuotaBase surchargeBase
            groupRatio)
          (p.modelRatio * groupRatio) billable).1
      else none
    withoutGroupSpecialRatio :=
      if p.hasGroupSpecialRatio then
        some (finalizeTextQuota
          (chargeWith p before bases.audioInputQuotaBase surchargeBase pricingGroupRatio)
          (p.modelRatio * pricingGroupRatio) billable).1
      else none
    originalQuota :=
      if p.hasGroupSpecialRatio || hasAny then
        some (finalizeTextQuota
          (chargeWith p beforeWithoutModelAdjustment bases.audioInputQuotaBase surchargeBase
            originalGroupRatio)
          (p.modelRatio * originalGroupRatio) billable).1
      else none }

/-- The counterfactuals of a fixed price: no minimum is asked for. -/
def fixedCounterfactuals (p : PriceData) (beforeGroup surchargeBase : ℚ) (billable : Bool) :
    BillingRevenueCounterfactuals :=
  if p.hasGroupSpecialRatio then
    let pricingGroupRatio := p.groupRatioInfo.pricingGroupRatio
    let quota := (finalizeTextQuota
      (p.applyOtherRatiosToDecimal (beforeGroup * pricingGroupRatio) +
        surchargeBase * pricingGroupRatio) 0 billable).1
    { withoutGroupSpecialRatio := some quota, originalQuota := some quota }
  else {}

def calculateTextQuotaSummary (settings : Settings) (ctx : Context) (info : RelayInfo)
    (usage : Option Dto.Usage) : TextQuotaSummary :=
  let p := info.priceData
  let modelName := info.getBillingModelName
  let tokens := textTokens settings info usage
  let groupRatio := p.groupRatioInfo.groupRatio
  let items := toolSurchargeItems settings ctx info
  let surchargeBase := calculateTextToolCallSurchargeBase settings items
  let surchargeQuota := surchargeBase * groupRatio
  -- A summary is marked as billed at a fixed price later, by a tiered settlement.
  let billable := hasBillableUsage false tokens.totalTokens surchargeQuota
  if p.usePrice = false then
    let bases := tokenBases settings p modelName tokens
    let charged := finalizeTextQuota
      (chargeWith p (quotaBeforeGroup p tokens bases) bases.audioInputQuotaBase surchargeBase
        groupRatio)
      (p.modelRatio * groupRatio) billable
    { modelName, tokens
      quota := charged.1
      audioInputPrice := bases.audioInputPrice
      toolSurchargeItems := items
      toolCallSurchargeBase := surchargeBase
      toolCallSurchargeQuota := surchargeQuota
      billingCounterfactuals := ratioCounterfactuals p tokens bases surchargeBase billable
      quotaClamp := noteQuotaClamp info.quotaClamp charged.2 }
  else
    let beforeGroup := p.modelPrice * settings.quotaPerUnit
    let charged := finalizeTextQuota
      (p.applyOtherRatiosToDecimal (beforeGroup * groupRatio) + surchargeQuota)
      (p.modelRatio * groupRatio) billable
    { modelName, tokens
      quota := charged.1
      audioInputPrice := 0
      toolSurchargeItems := items
      toolCallSurchargeBase := surchargeBase
      toolCallSurchargeQuota := surchargeQuota
      billingCounterfactuals := fixedCounterfactuals p beforeGroup surchargeBase billable
      quotaClamp := noteQuotaClamp info.quotaClamp charged.2 }

/-! ### Adjustments removed -/

/-- All token multipliers become 1. -/
def PriceData.withoutModelTokenAdjustment (p : PriceData) : PriceData :=
  { p with modelTokenAdjustment := TokenAdjustment.none }

def PriceData.withGroupRatio (p : PriceData) (groupRatio : ℚ) : PriceData :=
  { p with groupRatioInfo := { p.groupRatioInfo with groupRatio } }

/-- The group's own ratio takes the place of a special one. -/
def PriceData.withoutGroupSpecialRatio (p : PriceData) : PriceData :=
  if p.hasGroupSpecialRatio then p.withGroupRatio p.groupRatioInfo.pricingGroupRatio else p

end JulongApi.TextQuota
