/-
What a request would have been charged.

A counterfactual agrees with a second run if the two make the same three decisions: the
amount, the ratio that asks for a charge of at least one, and whether there is anything to
bill.  The amounts always agree (`quota_ratio`, `quota_fixed`).  The other two are those of the
request as it was priced: a group ratio of zero leaves a request without tokens nothing to
bill, also where the group's own ratio would charge its tools, and a fixed price asks for no
minimum.  Everywhere else the counterfactuals are right (`counterfactuals_agree_iff`).
-/
import JulongApi.TextQuota
import JulongApi.Proofs.Pricing

namespace JulongApi

/-! ### The sign of a quota -/

theorem quotaFromDecimalChecked_eq_clamp (d : ℚ) :
    (quotaFromDecimalChecked d).1 = max minQuota (min maxQuota (roundHalfAway d)) := by
  have hbounds : minQuota < maxQuota := by decide
  unfold quotaFromDecimalChecked saturateQuota saturateQuotaBounded
  by_cases hover : maxQuota < roundHalfAway d
  · rw [if_pos (by exact_mod_cast hover)]
    dsimp only
    omega
  · rw [if_neg (by exact_mod_cast hover)]
    by_cases hunder : roundHalfAway d < minQuota
    · rw [if_pos (by exact_mod_cast hunder)]
      dsimp only
      omega
    · rw [if_neg (by exact_mod_cast hunder), truncate_intCast]
      omega

theorem roundHalfAway_pos_iff (d : ℚ) : 0 < roundHalfAway d ↔ 1 / 2 ≤ d := by
  unfold roundHalfAway
  by_cases h : 0 ≤ d
  · rw [if_pos h, Int.floor_pos]
    constructor <;> intro hle <;> linarith
  · have hfloor : 0 ≤ ⌊-d + 1 / 2⌋ := Int.floor_nonneg.mpr (by linarith)
    rw [if_neg h]
    constructor
    · intro hpos
      omega
    · intro hle
      linarith

theorem roundHalfAway_neg_iff (d : ℚ) : roundHalfAway d < 0 ↔ d ≤ -(1 / 2) := by
  unfold roundHalfAway
  by_cases h : 0 ≤ d
  · have hfloor : 0 ≤ ⌊d + 1 / 2⌋ := Int.floor_nonneg.mpr (by linarith)
    rw [if_pos h]
    constructor
    · intro hneg
      omega
    · intro hle
      linarith
  · have hpos : 0 < ⌊-d + 1 / 2⌋ ↔ 1 ≤ -d + 1 / 2 := Int.floor_pos
    rw [if_neg h, neg_lt_zero, hpos]
    constructor <;> intro hle <;> linarith

theorem quotaFromDecimalChecked_pos_iff (d : ℚ) :
    0 < (quotaFromDecimalChecked d).1 ↔ 1 / 2 ≤ d := by
  have hmax : 0 < maxQuota := by decide
  have hmin : minQuota < 0 := by decide
  rw [quotaFromDecimalChecked_eq_clamp, ← roundHalfAway_pos_iff]
  omega

theorem quotaFromDecimalChecked_zero_iff (d : ℚ) :
    (quotaFromDecimalChecked d).1 = 0 ↔ -(1 / 2) < d ∧ d < 1 / 2 := by
  have hmax : 0 < maxQuota := by decide
  have hmin : minQuota < 0 := by decide
  rw [quotaFromDecimalChecked_eq_clamp, ← not_le, ← not_le, ← roundHalfAway_pos_iff,
    ← roundHalfAway_neg_iff]
  omega

namespace TextQuota

/-! ### `finalizeTextQuota` -/

@[simp] theorem finalizeTextQuota_unbilled (quota ratio : ℚ) :
    (finalizeTextQuota quota ratio false).1 = 0 := rfl

theorem finalizeTextQuota_billed (quota ratio : ℚ) :
    (finalizeTextQuota quota ratio true).1 =
      if ratio ≠ 0 ∧ (quotaFromDecimalChecked quota).1 ≤ 0 then 1
      else (quotaFromDecimalChecked quota).1 := by
  unfold finalizeTextQuota
  simp only [Bool.true_eq_false, if_false]
  split <;> rfl

theorem finalizeTextQuota_eq_zero_iff (quota ratio : ℚ) :
    (finalizeTextQuota quota ratio true).1 = 0 ↔
      ratio = 0 ∧ -(1 / 2) < quota ∧ quota < 1 / 2 := by
  rw [finalizeTextQuota_billed, ← quotaFromDecimalChecked_zero_iff]
  by_cases hratio : ratio = 0
  · rw [if_neg (fun h => h.1 hratio)]
    exact (and_iff_right hratio).symm
  · by_cases hpos : (quotaFromDecimalChecked quota).1 ≤ 0
    · rw [if_pos ⟨hratio, hpos⟩]
      constructor
      · intro h
        omega
      · intro h
        exact absurd h.1 hratio
    · rw [if_neg (fun h => hpos h.2)]
      constructor
      · intro h
        omega
      · intro h
        exact absurd h.1 hratio

theorem finalizeTextQuota_minimum_iff (quota ratio : ℚ) :
    (finalizeTextQuota quota 0 true).1 = (finalizeTextQuota quota ratio true).1 ↔
      ratio = 0 ∨ 1 / 2 ≤ quota := by
  rw [finalizeTextQuota_billed, finalizeTextQuota_billed, if_neg (fun h => h.1 rfl),
    ← quotaFromDecimalChecked_pos_iff]
  by_cases hratio : ratio = 0
  · rw [if_neg (fun h => h.1 hratio)]
    exact iff_of_true rfl (.inl hratio)
  · by_cases hpos : (quotaFromDecimalChecked quota).1 ≤ 0
    · rw [if_pos ⟨hratio, hpos⟩]
      constructor
      · intro h
        omega
      · intro h
        exact absurd (h.resolve_left hratio) (by omega)
    · rw [if_neg (fun h => hpos h.2)]
      exact iff_of_true rfl (.inr (by omega))

/-! ### Prices -/

theorem applyOtherRatiosToDecimal_zero (p : PriceData) : p.applyOtherRatiosToDecimal 0 = 0 := by
  unfold PriceData.applyOtherRatiosToDecimal
  induction p.otherRatios with
  | nil => rfl
  | cons ratio rest ih =>
    rw [List.foldl_cons, zero_mul, ite_self]
    exact ih

theorem chargeWith_zero (p : PriceData) (before audio base : ℚ) :
    chargeWith p before audio base 0 = 0 := by
  unfold chargeWith
  rw [mul_zero, mul_zero, mul_zero, add_zero, add_zero, applyOtherRatiosToDecimal_zero]

theorem quotaBeforeGroup_withoutModelTokenAdjustment (p : PriceData) (t : TextTokens)
    (bases : TokenBases) :
    quotaBeforeGroup p.withoutModelTokenAdjustment t bases =
      quotaBeforeGroupWithoutModelAdjustment p t bases := by
  unfold quotaBeforeGroup quotaBeforeGroupWithoutModelAdjustment
  simp only [PriceData.withoutModelTokenAdjustment, TokenAdjustment.none,
    ModelTokenAdjustment.inputMultiplier, ModelTokenAdjustment.outputMultiplier,
    TokenAdjustment.cacheReadMultiplier, TokenAdjustment.cacheCreationMultiplier,
    modelTokenMultiplier, mul_one]

variable {p : PriceData}

theorem withoutModelTokenAdjustment_of_not_hasAny (h : p.modelTokenAdjustment.hasAny = false) :
    p.withoutModelTokenAdjustment = p := by
  rcases hadjust : p.modelTokenAdjustment with ⟨⟨input, output⟩, cacheRead, cacheCreation⟩
  rw [hadjust] at h
  simp only [TokenAdjustment.hasAny, Bool.or_eq_false_iff, Option.isSome_eq_false_iff,
    Option.isNone_iff_eq_none] at h
  obtain ⟨⟨⟨rfl, rfl⟩, rfl⟩, rfl⟩ := h
  unfold PriceData.withoutModelTokenAdjustment TokenAdjustment.none
  rw [← hadjust]

theorem beforeWithoutModelAdjustment_eq (p : PriceData) (t : TextTokens) (bases : TokenBases) :
    (if p.modelTokenAdjustment.hasAny then quotaBeforeGroupWithoutModelAdjustment p t bases
      else quotaBeforeGroup p t bases) =
      quotaBeforeGroup p.withoutModelTokenAdjustment t bases := by
  by_cases hany : p.modelTokenAdjustment.hasAny = true
  · rw [if_pos hany, quotaBeforeGroup_withoutModelTokenAdjustment]
  · rw [if_neg hany, withoutModelTokenAdjustment_of_not_hasAny (by simpa using hany)]

theorem quotaBeforeGroup_of_modelRatio_zero (h : p.modelRatio = 0) (t : TextTokens)
    (bases : TokenBases) : quotaBeforeGroup p t bases = 0 := by
  unfold quotaBeforeGroup
  dsimp only
  rw [h, mul_zero]

/-! ### A request priced again -/

section

variable (settings : Settings) (ctx : Context) (info : RelayInfo) (usage : Option Dto.Usage)

def surchargeBase : ℚ :=
  calculateTextToolCallSurchargeBase settings (toolSurchargeItems settings ctx info)

def billableAt (groupRatio : ℚ) : Bool :=
  hasBillableUsage false (textTokens settings info usage).totalTokens
    (surchargeBase settings ctx info * groupRatio)

def bases : TokenBases :=
  tokenBases settings info.priceData info.getBillingModelName (textTokens settings info usage)

def rerun (p : PriceData) : Int :=
  (calculateTextQuotaSummary settings ctx { info with priceData := p } usage).quota

theorem summary_ratio (husePrice : info.priceData.usePrice = false) :
    let p := info.priceData
    let t := textTokens settings info usage
    let groupRatio := p.groupRatioInfo.groupRatio
    let b := bases settings info usage
    let summary := calculateTextQuotaSummary settings ctx info usage
    let billable := billableAt settings ctx info usage groupRatio
    summary.quota =
        (finalizeTextQuota
          (chargeWith p (quotaBeforeGroup p t b) b.audioInputQuotaBase
            (surchargeBase settings ctx info) groupRatio)
          (p.modelRatio * groupRatio) billable).1 ∧
      summary.billingCounterfactuals =
        ratioCounterfactuals p t b (surchargeBase settings ctx info) billable := by
  unfold calculateTextQuotaSummary
  dsimp only
  rw [if_pos husePrice]
  exact ⟨rfl, rfl⟩

theorem summary_fixed (husePrice : info.priceData.usePrice = true) :
    let p := info.priceData
    let groupRatio := p.groupRatioInfo.groupRatio
    let summary := calculateTextQuotaSummary settings ctx info usage
    let billable := billableAt settings ctx info usage groupRatio
    summary.quota =
        (finalizeTextQuota
          (p.applyOtherRatiosToDecimal (p.modelPrice * settings.quotaPerUnit * groupRatio) +
            surchargeBase settings ctx info * groupRatio)
          (p.modelRatio * groupRatio) billable).1 ∧
      summary.billingCounterfactuals =
        fixedCounterfactuals p (p.modelPrice * settings.quotaPerUnit)
          (surchargeBase settings ctx info) billable := by
  have hnot : ¬info.priceData.usePrice = false := by
    rw [husePrice]
    decide
  unfold calculateTextQuotaSummary
  dsimp only
  rw [if_neg hnot]
  exact ⟨rfl, rfl⟩

/-- The price itself, or without its token multipliers. -/
def RelayInfo.Reprices (info : RelayInfo) (p : PriceData) : Prop :=
  p = info.priceData ∨ p = info.priceData.withoutModelTokenAdjustment

theorem textTokens_repriced (hp : info.Reprices p) (groupRatio : ℚ) :
    textTokens settings { info with priceData := p.withGroupRatio groupRatio } usage =
      textTokens settings info usage := by
  obtain rfl | rfl := hp <;> rfl

theorem bases_repriced (hp : info.Reprices p) (groupRatio : ℚ) :
    bases settings { info with priceData := p.withGroupRatio groupRatio } usage =
      bases settings info usage := by
  unfold bases
  rw [textTokens_repriced settings info usage hp]
  obtain rfl | rfl := hp <;> rfl

theorem billableAt_repriced (hp : info.Reprices p) (groupRatio : ℚ) :
    billableAt settings ctx { info with priceData := p.withGroupRatio groupRatio } usage =
      billableAt settings ctx info usage := by
  unfold billableAt
  rw [textTokens_repriced settings info usage hp]
  rfl

theorem quota_ratio (husePrice : info.priceData.usePrice = false) (hp : info.Reprices p)
    (groupRatio : ℚ) :
    rerun settings ctx info usage (p.withGroupRatio groupRatio) =
      (finalizeTextQuota
        (chargeWith info.priceData
          (quotaBeforeGroup p (textTokens settings info usage) (bases settings info usage))
          (bases settings info usage).audioInputQuotaBase (surchargeBase settings ctx info)
          groupRatio)
        (info.priceData.modelRatio * groupRatio)
        (billableAt settings ctx info usage groupRatio)).1 := by
  have huse : (p.withGroupRatio groupRatio).usePrice = false := by
    obtain rfl | rfl := hp <;> exact husePrice
  have hquota := (summary_ratio settings ctx
    { info with priceData := p.withGroupRatio groupRatio } usage huse).1
  dsimp only at hquota
  rw [textTokens_repriced settings info usage hp, bases_repriced settings info usage hp,
    billableAt_repriced settings ctx info usage hp] at hquota
  unfold rerun
  rw [hquota]
  obtain rfl | rfl := hp <;> rfl

theorem quota_fixed (husePrice : info.priceData.usePrice = true) (hp : info.Reprices p)
    (groupRatio : ℚ) :
    rerun settings ctx info usage (p.withGroupRatio groupRatio) =
      (finalizeTextQuota
        (info.priceData.applyOtherRatiosToDecimal
            (info.priceData.modelPrice * settings.quotaPerUnit * groupRatio) +
          surchargeBase settings ctx info * groupRatio)
        (info.priceData.modelRatio * groupRatio)
        (billableAt settings ctx info usage groupRatio)).1 := by
  have huse : (p.withGroupRatio groupRatio).usePrice = true := by
    obtain rfl | rfl := hp <;> exact husePrice
  have hquota := (summary_fixed settings ctx
    { info with priceData := p.withGroupRatio groupRatio } usage huse).1
  dsimp only at hquota
  rw [billableAt_repriced settings ctx info usage hp] at hquota
  unfold rerun
  rw [hquota]
  obtain rfl | rfl := hp <;> rfl

/-! ### Where the counterfactuals agree -/

/-- Every counterfactual a summary reports is the quota of the request without the adjustment. -/
structure CounterfactualsAgree : Prop where
  withoutModelTokenAdjustment : ∀ quota,
    (calculateTextQuotaSummary settings ctx info usage).billingCounterfactuals.withoutModelTokenAdjustment
        = some quota →
      quota = rerun settings ctx info usage info.priceData.withoutModelTokenAdjustment
  withoutGroupSpecialRatio : ∀ quota,
    (calculateTextQuotaSummary settings ctx info usage).billingCounterfactuals.withoutGroupSpecialRatio
        = some quota →
      quota = rerun settings ctx info usage info.priceData.withoutGroupSpecialRatio
  originalQuota : ∀ quota,
    (calculateTextQuotaSummary settings ctx info usage).billingCounterfactuals.originalQuota
        = some quota →
      quota = rerun settings ctx info usage
        info.priceData.withoutModelTokenAdjustment.withoutGroupSpecialRatio

/-- What the request costs at the group's own ratio, but for tokens that the model's ratio prices. -/
def pricingGroupCharge : ℚ :=
  let p := info.priceData
  let pricingGroupRatio := p.groupRatioInfo.pricingGroupRatio
  p.applyOtherRatiosToDecimal
      (if p.usePrice then p.modelPrice * settings.quotaPerUnit * pricingGroupRatio
        else (bases settings info usage).audioInputQuotaBase * pricingGroupRatio) +
    surchargeBase settings ctx info * pricingGroupRatio

/-- Tools that are free in the special group alone, of a request without tokens, cost nothing
at the group's own ratio either. -/
def FreeToolsCostNothing : Prop :=
  (textTokens settings info usage).totalTokens ≤ 0 → surchargeBase settings ctx info ≠ 0 →
    info.priceData.groupRatioInfo.groupRatio = 0 →
      info.priceData.modelRatio = 0 ∧ -(1 / 2) < pricingGroupCharge settings ctx info usage ∧
        pricingGroupCharge settings ctx info usage < 1 / 2

/-- A billed request at a fixed price, of a model that has a ratio too, needs no minimum. -/
def FixedPriceNeedsNoMinimum : Prop :=
  info.priceData.usePrice = true → info.priceData.modelRatio ≠ 0 →
    billableAt settings ctx info usage info.priceData.groupRatioInfo.groupRatio = true →
      1 / 2 ≤ pricingGroupCharge settings ctx info usage

variable {settings ctx info usage}

theorem billableAt_eq_true_iff {groupRatio : ℚ} :
    billableAt settings ctx info usage groupRatio = true ↔
      0 < (textTokens settings info usage).totalTokens ∨
        (surchargeBase settings ctx info ≠ 0 ∧ groupRatio ≠ 0) := by
  unfold billableAt hasBillableUsage
  simp only [Bool.false_or, Bool.or_eq_true, decide_eq_true_eq, ne_eq, mul_eq_zero, not_or]

theorem finalize_billable_iff {quota groupRatio other : ℚ} {minimum : ℚ} (hother : other ≠ 0) :
    (finalizeTextQuota quota minimum (billableAt settings ctx info usage groupRatio)).1 =
        (finalizeTextQuota quota minimum (billableAt settings ctx info usage other)).1 ↔
      ((textTokens settings info usage).totalTokens ≤ 0 → surchargeBase settings ctx info ≠ 0 →
        groupRatio = 0 → minimum = 0 ∧ -(1 / 2) < quota ∧ quota < 1 / 2) := by
  by_cases hbill : billableAt settings ctx info usage groupRatio = true
  · have hotherBill : billableAt settings ctx info usage other = true := by
      rw [billableAt_eq_true_iff] at hbill ⊢
      exact hbill.imp id fun h => ⟨h.1, hother⟩
    rw [hbill, hotherBill]
    refine iff_of_true rfl fun htotal hbase hzero => ?_
    obtain hpos | ⟨-, hne⟩ := billableAt_eq_true_iff.mp hbill
    · omega
    · exact absurd hzero hne
  · have hfalse := hbill
    rw [billableAt_eq_true_iff, not_or, not_lt, not_and_or, not_not, not_not] at hfalse
    obtain ⟨htotal, hfree⟩ := hfalse
    rw [Bool.not_eq_true] at hbill
    rw [hbill, finalizeTextQuota_unbilled]
    by_cases hbase : surchargeBase settings ctx info = 0
    · have hotherBill : billableAt settings ctx info usage other = false := by
        rw [← Bool.not_eq_true, billableAt_eq_true_iff, not_or, not_lt]
        exact ⟨htotal, fun h => h.1 hbase⟩
      rw [hotherBill, finalizeTextQuota_unbilled]
      exact iff_of_true rfl fun _ hne => absurd hbase hne
    · have hotherBill : billableAt settings ctx info usage other = true := by
        rw [billableAt_eq_true_iff]
        exact .inr ⟨hbase, hother⟩
      have hzero := hfree.resolve_left hbase
      rw [hotherBill, eq_comm, finalizeTextQuota_eq_zero_iff]
      exact ⟨fun h _ _ _ => h, fun h => h htotal hbase hzero⟩

@[simp] theorem finalizeTextQuota_nothing (billable : Bool) :
    (finalizeTextQuota 0 0 billable).1 = 0 := by
  cases billable with
  | false => rfl
  | true => exact (finalizeTextQuota_eq_zero_iff 0 0).mpr ⟨rfl, by norm_num, by norm_num⟩

theorem ratio_agree_iff (husePrice : info.priceData.usePrice = false)
    (hp : info.Reprices p) :
    (finalizeTextQuota
        (chargeWith info.priceData
          (quotaBeforeGroup p (textTokens settings info usage) (bases settings info usage))
          (bases settings info usage).audioInputQuotaBase (surchargeBase settings ctx info)
          info.priceData.groupRatioInfo.pricingGroupRatio)
        (info.priceData.modelRatio * info.priceData.groupRatioInfo.pricingGroupRatio)
        (billableAt settings ctx info usage info.priceData.groupRatioInfo.groupRatio)).1 =
      rerun settings ctx info usage
        (p.withGroupRatio info.priceData.groupRatioInfo.pricingGroupRatio) ↔
    (info.priceData.groupRatioInfo.pricingGroupRatio ≠ 0 →
      FreeToolsCostNothing settings ctx info usage) := by
  rw [quota_ratio settings ctx info usage husePrice hp]
  by_cases hpricing : info.priceData.groupRatioInfo.pricingGroupRatio = 0
  · rw [hpricing, chargeWith_zero, mul_zero, finalizeTextQuota_nothing, finalizeTextQuota_nothing]
    exact iff_of_true rfl fun h => absurd rfl h
  · rw [finalize_billable_iff hpricing, forall_prop_of_true hpricing, mul_eq_zero,
      or_iff_left hpricing]
    unfold FreeToolsCostNothing
    refine forall_congr' fun _ => forall_congr' fun _ => forall_congr' fun _ =>
      and_congr_right fun hmodel => ?_
    have hmodel' : p.modelRatio = 0 := by
      obtain rfl | rfl := hp <;> exact hmodel
    have hcharge : chargeWith info.priceData
        (quotaBeforeGroup p (textTokens settings info usage) (bases settings info usage))
        (bases settings info usage).audioInputQuotaBase (surchargeBase settings ctx info)
        info.priceData.groupRatioInfo.pricingGroupRatio =
        pricingGroupCharge settings ctx info usage := by
      unfold chargeWith pricingGroupCharge
      dsimp only
      rw [quotaBeforeGroup_of_modelRatio_zero hmodel', zero_mul, zero_add,
        if_neg (by rw [husePrice]; decide)]
    rw [hcharge]

theorem fixed_agree_iff (husePrice : info.priceData.usePrice = true)
    (hp : info.Reprices p) :
    (finalizeTextQuota
        (info.priceData.applyOtherRatiosToDecimal
            (info.priceData.modelPrice * settings.quotaPerUnit *
              info.priceData.groupRatioInfo.pricingGroupRatio) +
          surchargeBase settings ctx info * info.priceData.groupRatioInfo.pricingGroupRatio)
        0 (billableAt settings ctx info usage info.priceData.groupRatioInfo.groupRatio)).1 =
      rerun settings ctx info usage
        (p.withGroupRatio info.priceData.groupRatioInfo.pricingGroupRatio) ↔
    (info.priceData.groupRatioInfo.pricingGroupRatio ≠ 0 →
      FreeToolsCostNothing settings ctx info usage ∧
        FixedPriceNeedsNoMinimum settings ctx info usage) := by
  have hcharge : info.priceData.applyOtherRatiosToDecimal
        (info.priceData.modelPrice * settings.quotaPerUnit *
          info.priceData.groupRatioInfo.pricingGroupRatio) +
      surchargeBase settings ctx info * info.priceData.groupRatioInfo.pricingGroupRatio =
      pricingGroupCharge settings ctx info usage := by
    unfold pricingGroupCharge
    dsimp only
    rw [if_pos husePrice]
  rw [quota_fixed settings ctx info usage husePrice hp, hcharge]
  by_cases hpricing : info.priceData.groupRatioInfo.pricingGroupRatio = 0
  · rw [← hcharge, hpricing, mul_zero, mul_zero, mul_zero, applyOtherRatiosToDecimal_zero,
      add_zero, finalizeTextQuota_nothing, finalizeTextQuota_nothing]
    exact iff_of_true rfl fun h => absurd rfl h
  rw [forall_prop_of_true hpricing]
  have hratio : info.priceData.modelRatio * info.priceData.groupRatioInfo.pricingGroupRatio = 0 ↔
      info.priceData.modelRatio = 0 := by
    rw [mul_eq_zero, or_iff_left hpricing]
  by_cases hbill : billableAt settings ctx info usage
      info.priceData.groupRatioInfo.groupRatio = true
  · have hother : billableAt settings ctx info usage
        info.priceData.groupRatioInfo.pricingGroupRatio = true := by
      rw [billableAt_eq_true_iff] at hbill ⊢
      exact hbill.imp id fun h => ⟨h.1, hpricing⟩
    have hfree : FreeToolsCostNothing settings ctx info usage := by
      intro htotal _ hzero
      obtain hpos | ⟨-, hne⟩ := billableAt_eq_true_iff.mp hbill
      · omega
      · exact absurd hzero hne
    rw [hbill, hother, finalizeTextQuota_minimum_iff, hratio, and_iff_right hfree]
    constructor
    · intro h _ hmodel _
      exact h.resolve_left hmodel
    · intro h
      by_cases hmodel : info.priceData.modelRatio = 0
      · exact .inl hmodel
      · exact .inr (h husePrice hmodel hbill)
  · have hneeds : FixedPriceNeedsNoMinimum settings ctx info usage := by
      intro _ _ hbilled
      exact absurd hbilled hbill
    have hunbilled : ∀ minimum : ℚ,
        (finalizeTextQuota (pricingGroupCharge settings ctx info usage) 0
          (billableAt settings ctx info usage info.priceData.groupRatioInfo.groupRatio)).1 =
        (finalizeTextQuota (pricingGroupCharge settings ctx info usage) minimum
          (billableAt settings ctx info usage info.priceData.groupRatioInfo.groupRatio)).1 := by
      intro minimum
      rw [Bool.not_eq_true] at hbill
      rw [hbill, finalizeTextQuota_unbilled, finalizeTextQuota_unbilled]
    rw [hunbilled, finalize_billable_iff hpricing, hratio, and_iff_left hneeds]
    rfl

variable {quota : Int}

theorem withoutModelTokenAdjustment_agrees
    (h : (calculateTextQuotaSummary settings ctx info usage).billingCounterfactuals.withoutModelTokenAdjustment
      = some quota) :
    quota = rerun settings ctx info usage info.priceData.withoutModelTokenAdjustment := by
  cases husePrice : info.priceData.usePrice with
  | true =>
    rw [(summary_fixed settings ctx info usage husePrice).2] at h
    unfold fixedCounterfactuals at h
    split at h <;> cases h
  | false =>
    have hquota := quota_ratio settings ctx info usage husePrice
      (.inr rfl : info.Reprices info.priceData.withoutModelTokenAdjustment)
      info.priceData.groupRatioInfo.groupRatio
    have hsame : info.priceData.withoutModelTokenAdjustment.withGroupRatio
        info.priceData.groupRatioInfo.groupRatio =
        info.priceData.withoutModelTokenAdjustment := rfl
    rw [(summary_ratio settings ctx info usage husePrice).2] at h
    unfold ratioCounterfactuals at h
    dsimp only at h
    rw [beforeWithoutModelAdjustment_eq] at h
    obtain ⟨hany, ⟨⟩⟩ := Option.ite_none_right_eq_some.mp h
    rw [hsame] at hquota
    exact hquota.symm

theorem originalQuota_agrees_of_not_special (hspecial : info.priceData.hasGroupSpecialRatio = false)
    (h : (calculateTextQuotaSummary settings ctx info usage).billingCounterfactuals.originalQuota
      = some quota) :
    quota = rerun settings ctx info usage
      info.priceData.withoutModelTokenAdjustment.withoutGroupSpecialRatio := by
  have hsame : info.priceData.withoutModelTokenAdjustment.withoutGroupSpecialRatio =
      info.priceData.withoutModelTokenAdjustment :=
    if_neg (by
      show ¬info.priceData.hasGroupSpecialRatio = true
      rw [hspecial]
      decide)
  rw [hsame]
  refine @withoutModelTokenAdjustment_agrees _ _ _ _ quota ?_
  cases husePrice : info.priceData.usePrice with
  | true =>
    rw [(summary_fixed settings ctx info usage husePrice).2] at h ⊢
    unfold fixedCounterfactuals at h
    rw [hspecial] at h
    cases h
  | false =>
    rw [(summary_ratio settings ctx info usage husePrice).2] at h ⊢
    unfold ratioCounterfactuals at h ⊢
    dsimp only at h ⊢
    rw [hspecial, Bool.false_or] at h
    exact h

theorem special_agree {original : Int} {P : Prop}
    (hspecial : info.priceData.hasGroupSpecialRatio = true) (hcounter : let counterfactuals :=
        (calculateTextQuotaSummary settings ctx info usage).billingCounterfactuals
      counterfactuals.withoutGroupSpecialRatio = some quota ∧
        counterfactuals.originalQuota = some original)
    (hquota : quota = rerun settings ctx info usage
      (info.priceData.withGroupRatio info.priceData.groupRatioInfo.pricingGroupRatio) ↔ P)
    (horiginal : original = rerun settings ctx info usage
      (info.priceData.withoutModelTokenAdjustment.withGroupRatio
        info.priceData.groupRatioInfo.pricingGroupRatio) ↔ P) :
    CounterfactualsAgree settings ctx info usage ↔ P := by
  have hgroup : info.priceData.withoutGroupSpecialRatio =
      info.priceData.withGroupRatio info.priceData.groupRatioInfo.pricingGroupRatio :=
    if_pos hspecial
  have hmodel : info.priceData.withoutModelTokenAdjustment.withoutGroupSpecialRatio =
      info.priceData.withoutModelTokenAdjustment.withGroupRatio
        info.priceData.groupRatioInfo.pricingGroupRatio :=
    if_pos hspecial
  constructor
  · intro h
    have hagree := h.withoutGroupSpecialRatio
    rw [hcounter.1, hgroup] at hagree
    exact hquota.mp (hagree _ rfl)
  · intro h
    refine ⟨fun _ => withoutModelTokenAdjustment_agrees, fun other hother => ?_,
      fun other hother => ?_⟩
    · rw [hcounter.1] at hother
      cases hother
      rw [hgroup]
      exact hquota.mpr h
    · rw [hcounter.2] at hother
      cases hother
      rw [hmodel]
      exact horiginal.mpr h

theorem special_ratio (husePrice : info.priceData.usePrice = false)
    (hspecial : info.priceData.hasGroupSpecialRatio = true) :
    CounterfactualsAgree settings ctx info usage ↔
      (info.priceData.groupRatioInfo.pricingGroupRatio ≠ 0 →
        FreeToolsCostNothing settings ctx info usage) := by
  have hcounter := (summary_ratio settings ctx info usage husePrice).2
  unfold ratioCounterfactuals at hcounter
  dsimp only at hcounter
  rw [beforeWithoutModelAdjustment_eq, hspecial, Bool.true_or, if_pos rfl, if_pos rfl,
    if_pos rfl] at hcounter
  exact special_agree hspecial (by rw [hcounter]; exact ⟨rfl, rfl⟩)
    (ratio_agree_iff husePrice (.inl rfl)) (ratio_agree_iff husePrice (.inr rfl))

theorem special_fixed (husePrice : info.priceData.usePrice = true)
    (hspecial : info.priceData.hasGroupSpecialRatio = true) :
    CounterfactualsAgree settings ctx info usage ↔
      (info.priceData.groupRatioInfo.pricingGroupRatio ≠ 0 →
        FreeToolsCostNothing settings ctx info usage ∧
          FixedPriceNeedsNoMinimum settings ctx info usage) := by
  have hcounter := (summary_fixed settings ctx info usage husePrice).2
  unfold fixedCounterfactuals at hcounter
  rw [hspecial, if_pos rfl] at hcounter
  dsimp only at hcounter
  exact special_agree hspecial (by rw [hcounter]; exact ⟨rfl, rfl⟩)
    (fixed_agree_iff husePrice (.inl rfl)) (fixed_agree_iff husePrice (.inr rfl))

/-- The counterfactuals are the quotas of the request without the adjustments, if and only if
a special ratio neither frees the tools of a request without tokens that the group's own ratio
would charge, nor stands at a fixed price that the minimum would raise. -/
theorem counterfactuals_agree_iff :
    CounterfactualsAgree settings ctx info usage ↔
      (info.priceData.hasGroupSpecialRatio = true →
        info.priceData.groupRatioInfo.pricingGroupRatio ≠ 0 →
          FreeToolsCostNothing settings ctx info usage ∧
            FixedPriceNeedsNoMinimum settings ctx info usage) := by
  cases hspecial : info.priceData.hasGroupSpecialRatio with
  | false =>
    refine iff_of_true ⟨fun _ => withoutModelTokenAdjustment_agrees, fun quota h => ?_,
      fun _ => originalQuota_agrees_of_not_special hspecial⟩ (by simp)
    cases husePrice : info.priceData.usePrice with
    | true =>
      rw [(summary_fixed settings ctx info usage husePrice).2] at h
      unfold fixedCounterfactuals at h
      rw [hspecial] at h
      cases h
    | false =>
      rw [(summary_ratio settings ctx info usage husePrice).2] at h
      unfold ratioCounterfactuals at h
      dsimp only at h
      rw [hspecial] at h
      cases h
  | true =>
    rw [forall_prop_of_true rfl]
    cases husePrice : info.priceData.usePrice with
    | true => exact special_fixed husePrice hspecial
    | false =>
      have hneeds : FixedPriceNeedsNoMinimum settings ctx info usage := by
        intro hfixed
        rw [husePrice] at hfixed
        cases hfixed
      rw [special_ratio husePrice hspecial, and_iff_left hneeds]

end

/-- A web search preview costs 25 a thousand, and 500000 quota are one. -/
def searchSettings : Settings where
  toolPrices :=
    { defaults := fun _ => none
      prefixes := fun tool => if tool = "web_search_preview" then [("gpt-4o", 25)] else [] }
  getDefaultModelRatio := fun _ => none
  quotaPerUnit := 500000

def freeSearch : RelayInfo where
  originModelName := "gpt-4o-search-preview"
  billingModelName := ""
  priceData :=
    { modelPrice := 0, modelRatio := 5 / 4, completionRatio := 4, cacheRatio := 1
      cacheCreationRatio := 1, cacheCreation5mRatio := 1, cacheCreation1hRatio := 1
      imageRatio := 1, usePrice := false
      groupRatioInfo := { groupRatio := 0, pricingGroupRatio := 1, hasSpecialRatio := true }
      modelTokenAdjustment := TokenAdjustment.none, otherRatios := [] }
  estimatePromptTokens := 0
  relayFormat := "openai"
  finalRequestRelayFormat := ""
  requestConversionChain := []
  relayMode := .other
  channelType := some 1
  builtInTools := none
  quotaClamp := none

/-- Free in its special group, the search is reported to have cost nothing in `default` either,
where the same request is charged. -/
theorem free_search_reported_free :
    let summary := calculateTextQuotaSummary searchSettings ⟨0, false⟩ freeSearch (some {})
    summary.billingCounterfactuals.withoutGroupSpecialRatio = some 0 ∧
      rerun searchSettings ⟨0, false⟩ freeSearch (some {})
        freeSearch.priceData.withoutGroupSpecialRatio = 12500 ∧
      ¬CounterfactualsAgree searchSettings ⟨0, false⟩ freeSearch (some {}) := by
  have hreported : (calculateTextQuotaSummary searchSettings ⟨0, false⟩ freeSearch
      (some {})).billingCounterfactuals.withoutGroupSpecialRatio = some 0 := by
    decide +kernel
  have hrerun : rerun searchSettings ⟨0, false⟩ freeSearch (some {})
      freeSearch.priceData.withoutGroupSpecialRatio = 12500 := by
    decide +kernel
  refine ⟨hreported, hrerun, fun h => ?_⟩
  have hagree := h.withoutGroupSpecialRatio 0 hreported
  rw [hrerun] at hagree
  exact absurd hagree (by decide)

end TextQuota

end JulongApi
