/-
When a price comes to nothing.

A price above zero is rounded to the nearest unit, and a price that is not above zero is
raised to one, so with a ratio that is not zero a charge is never negative, and it is zero
for exactly one kind of price: one that is there but below half a unit.
-/
import JulongApi.Pricing

namespace JulongApi

/-! ### Rounding and saturation -/

variable {d : ℚ}

theorem roundHalfAway_nonneg (h : 0 ≤ d) : 0 ≤ roundHalfAway d := by
  unfold roundHalfAway
  rw [if_pos h, Int.floor_nonneg]
  linarith

theorem roundHalfAway_eq_zero_iff (h : 0 ≤ d) : roundHalfAway d = 0 ↔ d < 1 / 2 := by
  unfold roundHalfAway
  rw [if_pos h, Int.floor_eq_zero_iff, Set.mem_Ico]
  constructor
  · rintro ⟨-, hlt⟩
    linarith
  · intro hlt
    exact ⟨by linarith, by linarith⟩

theorem truncate_intCast (n : Int) : truncate (n : ℚ) = n := by
  unfold truncate
  split
  · exact Int.floor_intCast n
  · rw [show (-(n : ℚ)) = ((-n : Int) : ℚ) by push_cast; rfl, Int.floor_intCast, neg_neg]

theorem quotaFromDecimalChecked_eq (h : 0 ≤ d) :
    (quotaFromDecimalChecked d).1 = min (roundHalfAway d) maxQuota := by
  have hround := roundHalfAway_nonneg h
  unfold quotaFromDecimalChecked saturateQuota saturateQuotaBounded
  by_cases hover : maxQuota < roundHalfAway d
  · rw [if_pos (by exact_mod_cast hover)]
    exact (min_eq_right hover.le).symm
  · have hlow : ¬roundHalfAway d < minQuota := by
      unfold minQuota
      omega
    rw [if_neg (by exact_mod_cast hover), if_neg (by exact_mod_cast hlow), truncate_intCast]
    exact (min_eq_left (not_lt.mp hover)).symm

theorem quotaFromDecimalChecked_nonneg (h : 0 ≤ d) : 0 ≤ (quotaFromDecimalChecked d).1 := by
  rw [quotaFromDecimalChecked_eq h]
  exact le_min (roundHalfAway_nonneg h) (by decide)

theorem quotaFromDecimalChecked_eq_zero_iff (h : 0 ≤ d) :
    (quotaFromDecimalChecked d).1 = 0 ↔ d < 1 / 2 := by
  rw [quotaFromDecimalChecked_eq h, ← roundHalfAway_eq_zero_iff h]
  have hmax : 0 < maxQuota := by decide
  omega

/-! ### `calculateAudioQuota` by ratios -/

variable {settings : RatioSetting} {info : QuotaInfo}

theorem calculateAudioQuota_eq (hprice : info.usePrice = false) (hratio : info.ratio ≠ 0) :
    calculateAudioQuota settings info =
      quotaFromDecimalChecked (if info.price settings ≤ 0 then 1 else info.price settings) := by
  unfold calculateAudioQuota
  simp [hprice, hratio]

theorem charged_price_nonneg :
    0 ≤ (if info.price settings ≤ 0 then (1 : ℚ) else info.price settings) := by
  split
  · norm_num
  · linarith

theorem calculateAudioQuota_nonneg (hprice : info.usePrice = false) (hratio : info.ratio ≠ 0) :
    0 ≤ (calculateAudioQuota settings info).1 := by
  rw [calculateAudioQuota_eq hprice hratio]
  exact quotaFromDecimalChecked_nonneg charged_price_nonneg

theorem calculateAudioQuota_eq_zero_iff (hprice : info.usePrice = false)
    (hratio : info.ratio ≠ 0) :
    (calculateAudioQuota settings info).1 = 0 ↔
      0 < info.price settings ∧ info.price settings < 1 / 2 := by
  rw [calculateAudioQuota_eq hprice hratio,
    quotaFromDecimalChecked_eq_zero_iff charged_price_nonneg]
  by_cases hpos : info.price settings ≤ 0
  · rw [if_pos hpos]
    constructor
    · intro hlt
      norm_num at hlt
    · rintro ⟨hpos', -⟩
      linarith
  · rw [if_neg hpos]
    constructor
    · intro hlt
      exact ⟨not_le.mp hpos, hlt⟩
    · exact And.right

end JulongApi
