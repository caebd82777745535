/-
Every token is billed once.

An expression prices the tokens of a variable at the variable's price, and those of a
category it has no variable for with `p` or `c`.  So `p` and the categories priced apart have
to add up to the tokens there are.  For OpenAI-style usage they do: what is used is
subtracted from a total that holds everything (`subtractUsed_eq`).  Claude's input holds the
text alone, nothing is subtracted from it, and only the cache reads are put back: the sum is
right if and only if the cache writes without a variable are matched by images and audio that
have one (`Balanced`), as they are where there is none of either.
-/
import JulongApi.TieredSettle

namespace JulongApi.TieredSettle

/-! ### Whole floats -/

theorem float64_of_le {n : Int} (h : n.natAbs ≤ 2 ^ 53) : float64 n = n := by
  obtain hlt | heq := h.lt_or_eq
  · have hlog : Nat.log 2 n.natAbs - 52 = 0 := by
      by_cases hzero : n.natAbs = 0
      · simp [hzero]
      · have := Nat.log_lt_of_lt_pow hzero hlt
        omega
    unfold float64
    dsimp only
    rw [hlog, pow_zero, Nat.mod_one, Nat.div_one, if_neg (by omega), mul_one]
    exact Int.sign_mul_natAbs n
  · have hcases : n = 2 ^ 53 ∨ n = -2 ^ 53 := by omega
    obtain rfl | rfl := hcases <;> rfl

theorem float64_of_nonneg {n : Int} (hlow : 0 ≤ n) (hhigh : n ≤ 2 ^ 53) : float64 n = n :=
  float64_of_le (by omega)

/-! ### Sums of counts -/

def usedSum (usedVars : List String) (counts : List (String × Int)) : Int :=
  (counts.map fun count => if count.1 ∈ usedVars then count.2 else 0).sum

@[simp] theorem usedSum_nil (usedVars : List String) : usedSum usedVars [] = 0 := rfl

@[simp] theorem usedSum_cons (usedVars : List String) (name : String) (count : Int)
    (rest : List (String × Int)) :
    usedSum usedVars ((name, count) :: rest) =
      (if name ∈ usedVars then count else 0) + usedSum usedVars rest := rfl

theorem subtractUsed_eq (usedVars : List String) : ∀ {counts : List (String × Int)} {total : Int},
    total ≤ 2 ^ 53 → (∀ count ∈ counts, 0 ≤ count.2) → (counts.map (·.2)).sum ≤ total →
    subtractUsed usedVars total counts = total - usedSum usedVars counts ∧
      0 ≤ subtractUsed usedVars total counts := by
  intro counts
  induction counts with
  | nil =>
    intro total _ _ hsum
    exact ⟨(sub_zero total).symm, hsum⟩
  | cons head rest ih =>
    obtain ⟨name, count⟩ := head
    intro total hexact hnonneg hsum
    have hcount : 0 ≤ count := hnonneg (name, count) (by simp)
    have hrest : ∀ other ∈ rest, 0 ≤ other.2 :=
      fun other hother => hnonneg other (List.mem_cons_of_mem _ hother)
    have hrestSum : 0 ≤ (rest.map (·.2)).sum := by
      refine List.sum_nonneg fun x hx => ?_
      obtain ⟨other, hother, rfl⟩ := List.mem_map.mp hx
      exact hrest other hother
    rw [List.map_cons, List.sum_cons] at hsum
    dsimp only at hsum
    unfold subtractUsed
    rw [usedSum_cons]
    by_cases hused : name ∈ usedVars
    · have hfloat : float64 (total - count) = total - count :=
        float64_of_nonneg (by omega) (by omega)
      rw [if_pos hused, if_pos hused, hfloat]
      obtain ⟨heq, hleft⟩ := ih (show total - count ≤ 2 ^ 53 by omega) hrest (by omega)
      exact ⟨by omega, hleft⟩
    · rw [if_neg hused, if_neg hused]
      obtain ⟨heq, hleft⟩ := ih hexact hrest (by omega)
      exact ⟨by omega, hleft⟩

theorem splitImageTokens_le (usage : Dto.Usage) (isClaude : Bool) (usedVars : List String)
    (hcached : 0 ≤ usage.promptTokensDetails.cachedTokens)
    (himage : 0 ≤ usage.promptTokensDetails.imageTokens) :
    0 ≤ splitImageTokens usage isClaude usedVars ∧
      splitImageTokens usage isClaude usedVars ≤ usage.promptTokensDetails.cachedTokens ∧
      splitImageTokens usage isClaude usedVars ≤ usage.promptTokensDetails.imageTokens := by
  unfold splitImageTokens
  by_cases hsplit : "img_cr" ∈ usedVars ∧ isClaude = false
  · rw [if_pos hsplit]
    unfold cachedImageTokens
    split
    · dsimp only
      split
      · next hvalid => exact ⟨hvalid.1, hvalid.2.1, hvalid.2.2.1⟩
      · exact ⟨le_rfl, hcached, himage⟩
    · exact ⟨le_rfl, hcached, himage⟩
  · rw [if_neg hsplit]
    exact ⟨le_rfl, hcached, himage⟩

/-! ### What is asked of the counts -/

def TokenParams.inputCounts (t : TokenParams) : List (String × Int) :=
  [("cr", t.cr), ("cc", t.cc), ("cc1h", t.cc1h), ("img", t.img), ("img_cr", t.imgCR), ("ai", t.ai)]

def TokenParams.outputCounts (t : TokenParams) : List (String × Int) :=
  [("img_o", t.imgO), ("ao", t.ao)]

/-- All the input there is: Claude's input does not count the cache. -/
def inputTotal (usage : Dto.Usage) (isClaude : Bool) : Int :=
  if isClaude then
    usage.promptTokens + usage.promptTokensDetails.cachedTokens + (cacheCreation usage).1 +
      (cacheCreation usage).2
  else usage.promptTokens

/-- Every token is in `p` or `c`, or in one of the variables the expression uses, and in one. -/
structure BilledOnce (usage : Dto.Usage) (isClaude : Bool) (usedVars : List String) : Prop where
  len : (buildTieredTokenParams usage isClaude usedVars).len = inputTotal usage isClaude
  input : (buildTieredTokenParams usage isClaude usedVars).p +
    usedSum usedVars (buildTieredTokenParams usage isClaude usedVars).inputCounts =
      (buildTieredTokenParams usage isClaude usedVars).len
  output : (buildTieredTokenParams usage isClaude usedVars).c +
    usedSum usedVars (buildTieredTokenParams usage isClaude usedVars).outputCounts =
      usage.completionTokens

/-- The categories of a usage are not negative, and they have no token in common: they fit the
reported totals.  Cached image tokens count once where `img_cr` tells them apart. -/
structure Disjoint (usage : Dto.Usage) (isClaude : Bool) (usedVars : List String) : Prop where
  cached : 0 ≤ usage.promptTokensDetails.cachedTokens
  creation : 0 ≤ usage.claudeCacheCreation5mTokens
  creation1h : 0 ≤ usage.claudeCacheCreation1hTokens
  image : 0 ≤ usage.promptTokensDetails.imageTokens
  audio : 0 ≤ usage.promptTokensDetails.audioTokens
  imageOut : 0 ≤ usage.completionTokenDetails.imageTokens
  audioOut : 0 ≤ usage.completionTokenDetails.audioTokens
  input : (if isClaude then 0 else usage.promptTokensDetails.cachedTokens +
      (cacheCreation usage).1 + (cacheCreation usage).2 -
        splitImageTokens usage isClaude usedVars) +
    usage.promptTokensDetails.imageTokens + usage.promptTokensDetails.audioTokens ≤
      usage.promptTokens
  output : usage.completionTokenDetails.imageTokens + usage.completionTokenDetails.audioTokens ≤
    usage.completionTokens

def Exact (usage : Dto.Usage) (isClaude : Bool) : Prop :=
  inputTotal usage isClaude ≤ 2 ^ 53 ∧ usage.completionTokens ≤ 2 ^ 53

/-- Of a Claude usage, the cache writes without a variable are as many as the image and audio
tokens with one, and no output is priced apart. -/
def Balanced (usage : Dto.Usage) (isClaude : Bool) (usedVars : List String) : Prop :=
  isClaude = true →
    usedSum usedVars [("img", usage.promptTokensDetails.imageTokens),
        ("ai", usage.promptTokensDetails.audioTokens)] =
      (cacheCreation usage).1 + (cacheCreation usage).2 -
        usedSum usedVars [("cc", (cacheCreation usage).1), ("cc1h", (cacheCreation usage).2)] ∧
    usedSum usedVars [("img_o", usage.completionTokenDetails.imageTokens),
        ("ao", usage.completionTokenDetails.audioTokens)] = 0

section Billing

variable {usage : Dto.Usage} {isClaude : Bool} {usedVars : List String}

theorem cacheCreation_nonneg (h : Disjoint usage isClaude usedVars) :
    0 ≤ (cacheCreation usage).1 ∧ 0 ≤ (cacheCreation usage).2 := by
  unfold cacheCreation
  split
  · exact ⟨h.creation, h.creation1h⟩
  · exact ⟨usage.promptTokensDetails.cacheCreationTokensTotal_nonneg, le_rfl⟩

theorem billedOnce_openai (h : Disjoint usage false usedVars) (hexact : Exact usage false) :
    BilledOnce usage false usedVars := by
  obtain ⟨hcc, hcc1h⟩ := cacheCreation_nonneg h
  obtain ⟨hsplit, hsplitCached, hsplitImage⟩ :=
    splitImageTokens_le usage false usedVars h.cached h.image
  obtain ⟨hprompt, hcompletion⟩ := hexact
  obtain ⟨hcached, -, -, himage, haudio, himageOut, haudioOut, hinput, houtput⟩ := h
  simp only [Bool.false_eq_true, if_false, inputTotal] at hinput hprompt
  have hfloat : ∀ {n : Int}, 0 ≤ n → n ≤ usage.promptTokens → float64 n = n :=
    fun hlow hhigh => float64_of_nonneg hlow (hhigh.trans hprompt)
  have hfloatOut : ∀ {n : Int}, 0 ≤ n → n ≤ usage.completionTokens → float64 n = n :=
    fun hlow hhigh => float64_of_nonneg hlow (hhigh.trans hcompletion)
  have hparams : buildTieredTokenParams usage false usedVars =
      let cr := usage.promptTokensDetails.cachedTokens - splitImageTokens usage false usedVars
      let img := usage.promptTokensDetails.imageTokens - splitImageTokens usage false usedVars
      let p := subtractUsed usedVars usage.promptTokens
        [("cr", cr), ("cc", (cacheCreation usage).1), ("cc1h", (cacheCreation usage).2),
          ("img", img), ("img_cr", splitImageTokens usage false usedVars),
          ("ai", usage.promptTokensDetails.audioTokens)]
      let c := subtractUsed usedVars usage.completionTokens
        [("img_o", usage.completionTokenDetails.imageTokens),
          ("ao", usage.completionTokenDetails.audioTokens)]
      ⟨if p < 0 then 0 else p, if c < 0 then 0 else c, usage.promptTokens, cr,
        (cacheCreation usage).1, (cacheCreation usage).2, img,
        splitImageTokens usage false usedVars, usage.completionTokenDetails.imageTokens,
        usage.promptTokensDetails.audioTokens, usage.completionTokenDetails.audioTokens⟩ := by
    unfold buildTieredTokenParams
    dsimp only
    rw [hfloat hcc (by omega), hfloat hcc1h (by omega), hfloat hsplit (by omega),
      hfloat hcached (by omega), hfloat himage (by omega), hfloat haudio (by omega),
      hfloat (show 0 ≤ usage.promptTokens by omega) le_rfl,
      hfloatOut himageOut (by omega), hfloatOut haudioOut (by omega),
      hfloatOut (show 0 ≤ usage.completionTokens by omega) le_rfl,
      hfloat (sub_nonneg.mpr hsplitCached) (by omega),
      hfloat (sub_nonneg.mpr hsplitImage) (by omega)]
    simp only [Bool.false_eq_true, if_false]
  have hp := @subtractUsed_eq usedVars
    [("cr", usage.promptTokensDetails.cachedTokens -
        splitImageTokens usage false usedVars),
      ("cc", (cacheCreation usage).1), ("cc1h", (cacheCreation usage).2),
      ("img", usage.promptTokensDetails.imageTokens - splitImageTokens usage false usedVars),
      ("img_cr", splitImageTokens usage false usedVars),
      ("ai", usage.promptTokensDetails.audioTokens)] _ hprompt
    (by
      simp only [List.forall_mem_cons, List.not_mem_nil, false_implies, implies_true, and_true]
      omega)
    (by
      simp only [List.map_cons, List.map_nil, List.sum_cons, List.sum_nil]
      omega)
  have hc := @subtractUsed_eq usedVars
    [("img_o", usage.completionTokenDetails.imageTokens),
      ("ao", usage.completionTokenDetails.audioTokens)] _ hcompletion
    (by
      simp only [List.forall_mem_cons, List.not_mem_nil, false_implies, implies_true, and_true]
      omega)
    (by
      simp only [List.map_cons, List.map_nil, List.sum_cons, List.sum_nil]
      omega)
  constructor
  · rw [hparams]
    rfl
  · rw [hparams]
    dsimp only [TokenParams.inputCounts]
    rw [if_neg (not_lt.mpr hp.2), hp.1, sub_add_cancel]
  · rw [hparams]
    dsimp only [TokenParams.outputCounts]
    rw [if_neg (not_lt.mpr hc.2), hc.1, sub_add_cancel]

theorem billedOnce_claude_iff (h : Disjoint usage true usedVars) (hexact : Exact usage true) :
    BilledOnce usage true usedVars ↔ Balanced usage true usedVars := by
  obtain ⟨hcc, hcc1h⟩ := cacheCreation_nonneg h
  obtain ⟨htotal, hcompletion⟩ := hexact
  obtain ⟨hcached, -, -, himage, haudio, himageOut, haudioOut, hinput, houtput⟩ := h
  simp only [if_true, inputTotal] at hinput htotal
  have hprompt : 0 ≤ usage.promptTokens := by omega
  have hfloat : ∀ {n : Int}, 0 ≤ n →
      n ≤ usage.promptTokens + usage.promptTokensDetails.cachedTokens + (cacheCreation usage).1 +
        (cacheCreation usage).2 → float64 n = n :=
    fun hlow hhigh => float64_of_nonneg hlow (hhigh.trans htotal)
  have hfloatOut : ∀ {n : Int}, 0 ≤ n → n ≤ usage.completionTokens → float64 n = n :=
    fun hlow hhigh => float64_of_nonneg hlow (hhigh.trans hcompletion)
  have hsplit : splitImageTokens usage true usedVars = 0 := by
    unfold splitImageTokens
    rw [if_neg (by simp)]
  have hp : ¬(if "cr" ∈ usedVars then usage.promptTokens
      else usage.promptTokens + usage.promptTokensDetails.cachedTokens) < 0 := by
    split <;> omega
  have hc : ¬usage.completionTokens < 0 := by omega
  have hparams : buildTieredTokenParams usage true usedVars =
      ⟨if "cr" ∈ usedVars then usage.promptTokens
          else usage.promptTokens + usage.promptTokensDetails.cachedTokens,
        usage.completionTokens, inputTotal usage true, usage.promptTokensDetails.cachedTokens,
        (cacheCreation usage).1, (cacheCreation usage).2, usage.promptTokensDetails.imageTokens,
        0, usage.completionTokenDetails.imageTokens, usage.promptTokensDetails.audioTokens,
        usage.completionTokenDetails.audioTokens⟩ := by
    unfold buildTieredTokenParams
    dsimp only
    rw [hsplit, hfloat hcc (by omega), hfloat hcc1h (by omega), hfloat le_rfl (by omega),
      hfloat hcached (by omega), hfloat himage (by omega), hfloat haudio (by omega),
      hfloat hprompt (by omega), hfloatOut himageOut (by omega), hfloatOut haudioOut (by omega),
      hfloatOut (show 0 ≤ usage.completionTokens by omega) le_rfl, sub_zero, sub_zero,
      hfloat hcached (by omega), hfloat himage (by omega),
      hfloat (show 0 ≤ usage.promptTokens + usage.promptTokensDetails.cachedTokens by omega)
        (by omega),
      hfloat (show 0 ≤ usage.promptTokens + usage.promptTokensDetails.cachedTokens +
        (cacheCreation usage).1 by omega) (by omega),
      hfloat (show 0 ≤ usage.promptTokens + usage.promptTokensDetails.cachedTokens +
        (cacheCreation usage).1 + (cacheCreation usage).2 by omega) le_rfl]
    simp only [if_true, inputTotal]
    rw [if_neg hp, if_neg hc]
  have hlen : (buildTieredTokenParams usage true usedVars).len = inputTotal usage true := by
    rw [hparams]
  constructor
  · intro hbilled _
    have hin := hbilled.input
    have hout := hbilled.output
    rw [hlen, hparams] at hin
    rw [hparams] at hout
    simp only [inputTotal, if_true, TokenParams.inputCounts, TokenParams.outputCounts,
      usedSum_cons, usedSum_nil, ite_self] at hin hout ⊢
    split at hin <;> constructor <;> omega
  · intro hbalanced
    obtain ⟨hin, hout⟩ := hbalanced rfl
    simp only [usedSum_cons, usedSum_nil] at hin hout
    refine ⟨hlen, ?_, ?_⟩
    · rw [hlen, hparams]
      simp only [inputTotal, if_true, TokenParams.inputCounts, usedSum_cons, usedSum_nil, ite_self]
      split <;> omega
    · rw [hparams]
      simp only [TokenParams.outputCounts, usedSum_cons, usedSum_nil]
      omega

/--
**Every token is billed exactly once** if and only if the usage is OpenAI-style, or it is Claude's
and balanced.
-/
theorem tokens_billed_once_iff (usage : Dto.Usage) (isClaude : Bool) (usedVars : List String)
    (h : Disjoint usage isClaude usedVars) (hexact : Exact usage isClaude) :
    BilledOnce usage isClaude usedVars ↔ Balanced usage isClaude usedVars := by
  cases isClaude with
  | false => exact iff_of_true (billedOnce_openai h hexact) fun hclaude => by cases hclaude
  | true => exact billedOnce_claude_iff h hexact

end Billing

/-- 1000 input tokens: 600 of images, 300 cached, 200 of them of images. -/
def cachedImages : Dto.Usage where
  promptTokens := 1000
  completionTokens := 100
  promptTokensDetails :=
    { cachedTokens := 300, cachedTokensDetails := some ⟨none, some 200, none⟩, imageTokens := 600 }

theorem tokens_billed_once_cachedImages :
    BilledOnce cachedImages false ["p", "c", "cr", "img", "img_cr"] := by
  refine (tokens_billed_once_iff cachedImages false _ ?_ ?_).mpr fun h => by cases h
  · constructor <;> decide
  · exact ⟨by decide, by decide⟩

def cacheWriting : Dto.Usage where
  promptTokens := 100
  completionTokens := 10
  usageSemantic := "anthropic"
  promptTokensDetails := { cachedCreationTokens := 50 }
  claudeCacheCreation5mTokens := 50

/-- An expression without `cc` bills the 50 tokens nowhere. -/
theorem cache_writes_not_billed : Disjoint cacheWriting true ["p", "c", "len"] ∧
    ¬BilledOnce cacheWriting true ["p", "c", "len"] := by
  refine ⟨by constructor <;> decide, fun h => ?_⟩
  have hin := h.input
  revert hin
  decide

def pastExact : Dto.Usage where
  promptTokens := 2 ^ 53 + 3
  promptTokensDetails := { cachedTokens := 1 }

theorem rounded_billed_twice : Disjoint pastExact false ["p", "cr"] ∧
    ¬BilledOnce pastExact false ["p", "cr"] := by
  refine ⟨by constructor <;> decide, fun h => ?_⟩
  have hin := h.input
  revert hin
  decide

end JulongApi.TieredSettle
