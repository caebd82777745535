/-
What the consume log says of an audio settlement: `PostAudioConsumeQuota` and
`PostWssConsumeQuota` of `service/quota.go`, with `GenerateAudioOtherInfo` and
`GenerateWssOtherInfo` of `service/log_info_generate.go`.

Both charge by `calculateAudioQuota`, which looks ratios up under one name, and log ratios that
they look up themselves.
-/
import JulongApi.Realtime

namespace JulongApi.AudioSettle

/-- What the log keeps of a settlement by ratios. -/
structure ConsumeLog where
  quota : Int
  modelRatio : ℚ
  groupRatio : ℚ
  completionRatio : ℚ
  audioRatio : ℚ
  audioCompletionRatio : ℚ
  textInput : Int
  textOutput : Int
  audioInput : Int
  audioOutput : Int
  modelTokenAdjustment : ModelTokenAdjustment

/-- The log of a charge, with the names under which its ratios are looked up. -/
def consumeLog (ratios : RatioSetting) (completion audio audioCompletion : String)
    (info : QuotaInfo) (quota : Int) : ConsumeLog where
  quota := quota
  modelRatio := info.modelRatio
  groupRatio := info.groupRatio
  completionRatio := ratios.getCompletionRatio completion
  audioRatio := ratios.getAudioRatio audio
  audioCompletionRatio := ratios.getAudioCompletionRatio audioCompletion
  textInput := info.inputDetails.textTokens
  textOutput := info.outputDetails.textTokens
  audioInput := info.inputDetails.audioTokens
  audioOutput := info.outputDetails.audioTokens
  modelTokenAdjustment := info.modelTokenAdjustment

/-! ### `PostAudioConsumeQuota` -/

/-- `dto.Usage`, as far as an audio settlement reads it. -/
structure AudioUsage where
  totalTokens : Int
  promptTokensDetails : TokenDetails
  completionTokenDetails : TokenDetails

/-- What an audio settlement reads off `RelayInfo`. -/
structure AudioRelayInfo where
  originModelName : String
  billingModelName : String
  estimatePromptTokens : Int
  priceData : PriceData
  /-- `TryTieredSettle`: its quota, and whether it is the settlement of a fixed price -/
  tieredSettle : Option (Int × Bool)

def AudioRelayInfo.getBillingModelName (info : AudioRelayInfo) : String :=
  if info.billingModelName ≠ "" then info.billingModelName else info.originModelName

/-- The usage that is settled; without one the estimate is. -/
def AudioRelayInfo.usageOf (info : AudioRelayInfo) (usage : Option AudioUsage) : AudioUsage :=
  usage.getD ⟨info.estimatePromptTokens, ⟨0, 0⟩, ⟨0, 0⟩⟩

def AudioRelayInfo.quotaInfo (info : AudioRelayInfo) (usage : AudioUsage) : QuotaInfo where
  inputDetails := usage.promptTokensDetails
  outputDetails := usage.completionTokenDetails
  modelName := info.originModelName
  usePrice := info.priceData.usePrice
  modelPrice := info.priceData.modelPrice
  modelRatio := info.priceData.modelRatio
  groupRatio := info.priceData.groupRatio
  modelTokenAdjustment := info.priceData.modelTokenAdjustment

/-- The quota of `PostAudioConsumeQuota`. -/
def audioQuota (ratios : RatioSetting) (info : AudioRelayInfo) (usage : AudioUsage) : Int :=
  let (quota, fixedPriceBilling) :=
    info.tieredSettle.getD ((calculateAudioQuota ratios (info.quotaInfo usage)).1, false)
  if usage.totalTokens = 0 ∧ fixedPriceBilling = false then 0 else quota

def postAudioConsumeQuota (ratios : RatioSetting) (info : AudioRelayInfo)
    (usage : Option AudioUsage) : ConsumeLog :=
  let billingModelName := info.getBillingModelName
  consumeLog ratios billingModelName billingModelName billingModelName
    (info.quotaInfo (info.usageOf usage)) (audioQuota ratios info (info.usageOf usage))

/-- `PostWssConsumeQuota`, as `WssHelper` calls it. -/
def postWssConsumeQuota (ratios : RatioSetting) (p : PriceInfo) (usage : RealtimeUsage) :
    ConsumeLog :=
  consumeLog ratios p.upstreamModelName p.originModelName p.upstreamModelName
    (p.finalQuotaInfo usage) (finalQuota ratios p usage)

/-! ### The quota a log explains -/

/-- The ratios of a log, as the lookups of any name. -/
def ConsumeLog.ratios (log : ConsumeLog) : RatioSetting where
  getModelRatio := fun _ => log.modelRatio
  getCompletionRatio := fun _ => log.completionRatio
  getAudioRatio := fun _ => log.audioRatio
  getAudioCompletionRatio := fun _ => log.audioCompletionRatio
  getGroupRatio := fun _ => log.groupRatio
  getGroupGroupRatio := fun _ _ => none
  quotaPerUnit := 0

def ConsumeLog.quotaInfo (log : ConsumeLog) : QuotaInfo where
  inputDetails := ⟨log.textInput, log.audioInput⟩
  outputDetails := ⟨log.textOutput, log.audioOutput⟩
  modelName := ""
  usePrice := false
  modelPrice := 0
  modelRatio := log.modelRatio
  groupRatio := log.groupRatio
  modelTokenAdjustment := log.modelTokenAdjustment

/-- The audio quota formula, evaluated on a log. -/
def ConsumeLog.explained (log : ConsumeLog) : Int :=
  (calculateAudioQuota log.ratios log.quotaInfo).1

end JulongApi.AudioSettle
