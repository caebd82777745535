/-
When the consume log of an audio settlement explains its charge.

The log and the charge weigh the same tokens at the same ratio, so they part only where a ratio is
looked up under two names (`SameRatios`), and where no tokens are counted at all.
-/
import JulongApi.AudioSettle
import JulongApi.Proofs.Pricing

namespace JulongApi.AudioSettle

/-- The ratios of the tokens there are, the same under the names of the log as under that of the
charge. -/
structure SameRatios (ratios : RatioSetting) (completion audio audioCompletion : String)
    (info : QuotaInfo) : Prop where
  completion : info.outputDetails.textTokens ≠ 0 →
    ratios.getCompletionRatio completion = ratios.getCompletionRatio info.modelName
  audio : info.inputDetails.audioTokens ≠ 0 ∨ info.outputDetails.audioTokens ≠ 0 →
    ratios.getAudioRatio audio = ratios.getAudioRatio info.modelName
  audioCompletion : info.outputDetails.audioTokens ≠ 0 →
    ratios.getAudioCompletionRatio audioCompletion = ratios.getAudioCompletionRatio info.modelName

section Log

variable {ratios : RatioSetting} {completion audio audioCompletion : String} {info : QuotaInfo}

theorem SameRatios.weighted_eq (h : SameRatios ratios completion audio audioCompletion info)
    (quota : Int) :
    let log := consumeLog ratios completion audio audioCompletion info quota
    log.quotaInfo.weighted log.ratios = info.weighted ratios := by
  have hcompletion : (info.outputDetails.textTokens : ℚ) * ratios.getCompletionRatio completion =
      info.outputDetails.textTokens * ratios.getCompletionRatio info.modelName := by
    by_cases hnone : info.outputDetails.textTokens = 0
    · rw [hnone]
      norm_num
    · rw [h.completion hnone]
  have hinput : (info.inputDetails.audioTokens : ℚ) * ratios.getAudioRatio audio =
      info.inputDetails.audioTokens * ratios.getAudioRatio info.modelName := by
    by_cases hnone : info.inputDetails.audioTokens = 0
    · rw [hnone]
      norm_num
    · rw [h.audio (.inl hnone)]
  have houtput : (info.outputDetails.audioTokens : ℚ) * ratios.getAudioRatio audio *
      ratios.getAudioCompletionRatio audioCompletion =
        info.outputDetails.audioTokens * ratios.getAudioRatio info.modelName *
          ratios.getAudioCompletionRatio info.modelName := by
    by_cases hnone : info.outputDetails.audioTokens = 0
    · rw [hnone]
      norm_num
    · rw [h.audio (.inr hnone), h.audioCompletion hnone]
  dsimp only [QuotaInfo.weighted, consumeLog, ConsumeLog.quotaInfo, ConsumeLog.ratios]
  rw [hcompletion, hinput, houtput]

theorem SameRatios.explained_eq (h : SameRatios ratios completion audio audioCompletion info)
    (hprice : info.usePrice = false) (quota : Int) :
    (consumeLog ratios completion audio audioCompletion info quota).explained =
      (calculateAudioQuota ratios info).1 := by
  have hweighted := h.weighted_eq quota
  dsimp only at hweighted
  unfold ConsumeLog.explained calculateAudioQuota
  rw [if_neg (show ¬info.usePrice = true by simp [hprice]),
    if_neg (show ¬(consumeLog ratios completion audio audioCompletion info
      quota).quotaInfo.usePrice = true from Bool.false_ne_true)]
  unfold QuotaInfo.price
  rw [hweighted]
  rfl

theorem explained_eq_zero_iff (log : ConsumeLog) : log.explained = 0 ↔
    log.quotaInfo.ratio = 0 ∨
      0 < log.quotaInfo.price log.ratios ∧ log.quotaInfo.price log.ratios < 1 / 2 := by
  by_cases hratio : log.quotaInfo.ratio = 0
  · have hprice : log.quotaInfo.price log.ratios = 0 := by
      rw [QuotaInfo.price, hratio, mul_zero]
    refine iff_of_true ?_ (.inl hratio)
    unfold ConsumeLog.explained calculateAudioQuota
    rw [if_neg (show ¬log.quotaInfo.usePrice = true from Bool.false_ne_true)]
    simp only [hratio, hprice, ne_eq, not_true_eq_false, false_and, if_false]
    rw [quotaFromDecimalChecked_eq_zero_iff (le_refl 0)]
    norm_num
  · rw [or_iff_right hratio]
    exact calculateAudioQuota_eq_zero_iff rfl hratio

end Log

/-- **When the log of an audio settlement by ratios explains its charge.**  With tokens, where the
ratios are the same under the names of the log; without any, where the formula comes to nothing. -/
theorem log_explains_charge (ratios : RatioSetting) :
    (∀ (info : AudioRelayInfo) (reported : Option AudioUsage),
      info.priceData.usePrice = false → info.tieredSettle = none →
        let usage := info.usageOf reported
        let log := postAudioConsumeQuota ratios info reported
        let name := info.getBillingModelName
        (usage.totalTokens ≠ 0 → SameRatios ratios name name name (info.quotaInfo usage) →
            log.explained = log.quota) ∧
          (usage.totalTokens = 0 → (log.explained = log.quota ↔ log.quotaInfo.ratio = 0 ∨
            0 < log.quotaInfo.price log.ratios ∧ log.quotaInfo.price log.ratios < 1 / 2))) ∧
      ∀ (p : PriceInfo) (usage : RealtimeUsage),
        p.priceData.usePrice = false → p.tieredSettle = none →
          let log := postWssConsumeQuota ratios p usage
          (usage.totalTokens ≠ 0 → SameRatios ratios p.upstreamModelName p.originModelName
              p.upstreamModelName (p.finalQuotaInfo usage) → log.explained = log.quota) ∧
            (usage.totalTokens = 0 → (log.explained = log.quota ↔ log.quotaInfo.ratio = 0 ∨
              0 < log.quotaInfo.price log.ratios ∧
                log.quotaInfo.price log.ratios < 1 / 2)) := by
  constructor
  · intro info reported hprice htiered
    refine ⟨fun hsome hsame => ?_, fun hnone => ?_⟩
    · have hquota : audioQuota ratios info (info.usageOf reported) =
          (calculateAudioQuota ratios (info.quotaInfo (info.usageOf reported))).1 := by
        simp [audioQuota, htiered, hsome]
      exact (hsame.explained_eq hprice _).trans hquota.symm
    · have hquota : (postAudioConsumeQuota ratios info reported).quota = 0 := by
        simp [postAudioConsumeQuota, consumeLog, audioQuota, htiered, hnone]
      rw [hquota]
      exact explained_eq_zero_iff _
  · intro p usage hprice htiered
    refine ⟨fun hsome hsame => ?_, fun hnone => ?_⟩
    · have hquota : finalQuota ratios p usage =
          (calculateAudioQuota ratios (p.finalQuotaInfo usage)).1 := by
        simp [finalQuota, htiered, hsome]
      exact (hsame.explained_eq hprice _).trans hquota.symm
    · have hquota : (postWssConsumeQuota ratios p usage).quota = 0 := if_pos hnone
      rw [hquota]
      exact explained_eq_zero_iff _

def sampleRatios : RatioSetting where
  getModelRatio := fun _ => 1
  getCompletionRatio := fun name => if name = "gpt-audio" then 2 else 4
  getAudioRatio := fun _ => 10
  getAudioCompletionRatio := fun _ => 2
  getGroupRatio := fun _ => 1
  getGroupGroupRatio := fun _ _ => none
  quotaPerUnit := 500000

def sampleInfo (billingModelName : String) : AudioRelayInfo where
  originModelName := "gpt-audio"
  billingModelName := billingModelName
  estimatePromptTokens := 0
  priceData := ⟨false, 0, 1, 1, ⟨none, none⟩⟩
  tieredSettle := none

theorem log_explains_charge_sample :
    let log := postAudioConsumeQuota sampleRatios (sampleInfo "") (some ⟨100, ⟨0, 0⟩, ⟨100, 0⟩⟩)
    log.explained = log.quota ∧ log.quota = 200 := by
  refine ⟨?_, by decide +kernel⟩
  exact ((log_explains_charge sampleRatios).1 (sampleInfo "") (some ⟨100, ⟨0, 0⟩, ⟨100, 0⟩⟩) rfl
    rfl).1 (by decide) ⟨fun _ => rfl, fun _ => rfl, fun _ => rfl⟩

/-- A request is charged 200 under its own name, and its log explains 400. -/
theorem log_of_another_name : ¬ ∀ (ratios : RatioSetting) (info : AudioRelayInfo)
    (usage : Option AudioUsage), info.priceData.usePrice = false → info.tieredSettle = none →
      (postAudioConsumeQuota ratios info usage).explained =
        (postAudioConsumeQuota ratios info usage).quota := by
  intro hall
  have hwrong := hall sampleRatios (sampleInfo "gpt-audio@thinking:high")
    (some ⟨100, ⟨0, 0⟩, ⟨100, 0⟩⟩) rfl rfl
  revert hwrong
  decide +kernel

end JulongApi.AudioSettle
