/-
From tokens to quota.

The price of a request is a product of token counts and ratios, worked out in exact
decimals and only then turned into an integer.  This file embeds the conversions of
`common/quota_math.go`, the token adjustment of `types/model_token_adjustment.go`, the
group adjustment of `model/user_group_ratio.go` and `calculateAudioQuota` of
`service/quota.go`.

Ratios are rationals: every `float64` the source reads from its settings goes through
`decimal.NewFromFloat`, whose sums and products are exact.  A setting that is not a
number cannot be a rational, so the `NaN` and infinity tests have no counterpart here.
-/
import JulongApi.Quota

namespace JulongApi

/-! ### `common/quota_math.go` -/

/-- `QuotaClampKind`, without the one for `NaN`. -/
inductive QuotaClampKind where
  | overflow
  | underflow
deriving DecidableEq, Repr

/-- `QuotaClamp`: a conversion that had to be saturated. -/
structure QuotaClamp where
  op : String
  kind : QuotaClampKind
  original : ℚ
  clamped : Int
deriving DecidableEq

/-- `int(value)`: truncation toward zero. -/
def truncate (value : ℚ) : Int := if 0 ≤ value then ⌊value⌋ else -⌊-value⌋

/-- `decimal.Round(0)`: halves go away from zero. -/
def roundHalfAway (d : ℚ) : Int := if 0 ≤ d then ⌊d + 1 / 2⌋ else -⌊-d + 1 / 2⌋

def saturateQuotaBounded (value : ℚ) (op : String) (hi lo : Int) : Int × Option QuotaClamp :=
  if (hi : ℚ) < value then (hi, some ⟨op, .overflow, value, hi⟩)
  else if value < (lo : ℚ) then (lo, some ⟨op, .underflow, value, lo⟩)
  else (truncate value, none)

/-- `saturateQuota`: a single request stays within `int32`. -/
def saturateQuota (value : ℚ) (op : String) : Int × Option QuotaClamp :=
  saturateQuotaBounded value op maxQuota minQuota

def quotaFromDecimalChecked (d : ℚ) : Int × Option QuotaClamp :=
  saturateQuota (roundHalfAway d) "QuotaFromDecimal"

/-! ### Adjustments -/

def maxModelTokenAdjustment : ℚ := 100

/-- The two fields of `ModelTokenAdjustment` an audio price reads. -/
structure ModelTokenAdjustment where
  input : Option ℚ
  output : Option ℚ
deriving DecidableEq

/-- `modelTokenMultiplier`: an adjustment that is missing or out of range counts for nothing. -/
def modelTokenMultiplier (adjustment : Option ℚ) : ℚ :=
  match adjustment with
  | none => 1
  | some a => if a < 0 ∨ maxModelTokenAdjustment < a then 1 else 1 + a

def ModelTokenAdjustment.inputMultiplier (a : ModelTokenAdjustment) : ℚ :=
  modelTokenMultiplier a.input

def ModelTokenAdjustment.outputMultiplier (a : ModelTokenAdjustment) : ℚ :=
  modelTokenMultiplier a.output

/-- `ApplyUserGroupRatioAdjustment`; `none` is `ErrInvalidUserGroupRatioAdjustment`. -/
def applyUserGroupRatioAdjustment (baseRatio : ℚ) (enabled : Bool) (adjustment : ℚ) : Option ℚ :=
  if baseRatio < 0 then none
  else if !enabled then some baseRatio
  else if baseRatio + adjustment < 0 then none
  else some (baseRatio + adjustment)

/-! ### The price of audio and text tokens -/

/-- The lookups of `setting/ratio_setting`, as one call finds them. -/
structure RatioSetting where
  getModelRatio : String → ℚ
  getCompletionRatio : String → ℚ
  getAudioRatio : String → ℚ
  getAudioCompletionRatio : String → ℚ
  getGroupRatio : String → ℚ
  /-- the ratio a user's group has in a group, where one is set -/
  getGroupGroupRatio : String → String → Option ℚ
  quotaPerUnit : ℚ

structure TokenDetails where
  textTokens : Int
  audioTokens : Int
deriving DecidableEq, Repr

structure QuotaInfo where
  inputDetails : TokenDetails
  outputDetails : TokenDetails
  modelName : String
  usePrice : Bool
  modelPrice : ℚ
  modelRatio : ℚ
  groupRatio : ℚ
  modelTokenAdjustment : ModelTokenAdjustment

namespace QuotaInfo

/-- `ratio` of `calculateAudioQuota`. -/
def ratio (info : QuotaInfo) : ℚ := info.groupRatio * info.modelRatio

/-- The tokens, each weighted by its own ratio. -/
def weighted (settings : RatioSetting) (info : QuotaInfo) : ℚ :=
  info.inputDetails.textTokens * info.modelTokenAdjustment.inputMultiplier +
    info.outputDetails.textTokens * settings.getCompletionRatio info.modelName *
      info.modelTokenAdjustment.outputMultiplier +
    info.inputDetails.audioTokens * settings.getAudioRatio info.modelName +
    info.outputDetails.audioTokens * settings.getAudioRatio info.modelName *
      settings.getAudioCompletionRatio info.modelName

/-- What the tokens cost, before the minimum of one and the rounding. -/
def price (settings : RatioSetting) (info : QuotaInfo) : ℚ := info.weighted settings * info.ratio

end QuotaInfo

def calculateAudioQuota (settings : RatioSetting) (info : QuotaInfo) : Int × Option QuotaClamp :=
  if info.usePrice then
    quotaFromDecimalChecked (info.modelPrice * settings.quotaPerUnit * info.groupRatio)
  else
    -- a ratio that is not zero charges at least one, however few the tokens
    let quota :=
      if info.ratio ≠ 0 ∧ info.price settings ≤ 0 then 1 else info.price settings
    quotaFromDecimalChecked quota

end JulongApi
