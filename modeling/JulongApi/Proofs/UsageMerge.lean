/-
What a fold of usage snapshots reports.

Every count of a merged usage is the overlay of the count before and the count that comes in, and a
run of overlays ends at the last count that is not zero.  The thoughts of a Gemini usage are the
exception: they are overlaid together with the candidates.
-/
import JulongApi.UsageMerge

namespace JulongApi.UsageMerge

/-! ### Runs of overlays -/

theorem lastNonZero_concat (counts : List Int) (count : Int) :
    lastNonZero (counts ++ [count]) = if count ≠ 0 then count else lastNonZero counts := by
  unfold lastNonZero
  rw [List.reverse_concat, List.find?_cons]
  by_cases h : count = 0
  · simp [h]
  · simp [h]

theorem lastReported_concat (counts : List (Option Int)) (count : Option Int) :
    lastReported (counts ++ [count]) = (count <|> lastReported counts) := by
  unfold lastReported
  rw [List.reverse_concat, List.findSome?_cons]
  cases count with
  | none => rfl
  | some count => rfl

theorem overlay_eq {current incoming : Int} (h : 0 ≤ incoming) :
    overlay current incoming = if incoming ≠ 0 then incoming else current := by
  unfold overlay
  split <;> split <;> omega

theorem overlay_overlay (current incoming : Int) :
    overlay (overlay current incoming) incoming = overlay current incoming := by
  unfold overlay
  split <;> rfl

theorem overlayText_overlayText (current incoming : String) :
    overlayText (overlayText current incoming) incoming = overlayText current incoming := by
  unfold overlayText
  split <;> rfl

section Fold

variable {α β : Type} {merge : α → α → α} {Good : α → Prop}

variable {first : α} {rest : List α}

theorem foldl_report (report : List α → β) {read : α → β}
    (hone : ∀ first, Good first → read first = report [first])
    (hstep : ∀ seen current last, Good last → read current = report seen →
      read (merge current last) = report (seen ++ [last])) (rest : List α)
    (hgood : ∀ u ∈ first :: rest, Good u) :
    read (rest.foldl merge first) = report (first :: rest) := by
  induction rest using List.reverseRecOn with
  | nil =>
    exact hone first (hgood first (by simp))
  | append_singleton rest last ih =>
    have hseen : ∀ u ∈ first :: rest, Good u := by
      intro u hu
      rcases List.mem_cons.mp hu with rfl | hu
      · exact hgood u (by simp)
      · exact hgood u (by simp [hu])
    rw [List.foldl_concat, ← List.cons_append]
    exact hstep _ _ last (hgood last (by simp)) (ih hseen)

theorem foldl_lastNonZero {count : α → Int} (hnonneg : ∀ u, Good u → 0 ≤ count u)
    (hmerge : ∀ current incoming, Good incoming →
      count (merge current incoming) = overlay (count current) (count incoming)) (rest : List α)
    (hgood : ∀ u ∈ first :: rest, Good u) :
    count (rest.foldl merge first) = lastNonZero ((first :: rest).map count) := by
  refine foldl_report (fun seen => lastNonZero (seen.map count)) ?_ ?_ rest hgood
  · intro first _
    by_cases h : count first = 0 <;> simp [lastNonZero, h]
  · intro seen current last hlast hread
    rw [hmerge current last hlast, overlay_eq (hnonneg last hlast), hread, List.map_append]
    exact (lastNonZero_concat _ _).symm

theorem foldl_lastReported (count : α → Option Int)
    (hmerge : ∀ current incoming,
      count (merge current incoming) = (count incoming <|> count current))
    (first : α) (rest : List α) :
    count (rest.foldl merge first) = lastReported ((first :: rest).map count) := by
  have hgood : ∀ u ∈ first :: rest, True := fun _ _ => trivial
  refine foldl_report (fun seen => lastReported (seen.map count)) ?_ ?_ rest hgood
  · intro first _
    cases h : count first <;> simp [lastReported, h]
  · intro seen current last _ hread
    rw [hmerge, hread, List.map_append]
    exact (lastReported_concat _ _).symm

theorem foldl_of_merge {P : α → Prop} (hmerge : ∀ current incoming, P (merge current incoming))
    (first : α) (hne : rest ≠ []) : P (rest.foldl merge first) := by
  rw [← List.dropLast_concat_getLast hne, List.foldl_concat]
  exact hmerge _ _

theorem foldl_repeat
    (hmerge : ∀ current incoming, merge (merge current incoming) incoming = merge current incoming)
    (first : α) {last : α} (hlast : rest.getLast? = some last) :
    merge (rest.foldl merge first) last = rest.foldl merge first := by
  obtain ⟨front, rfl⟩ := List.getLast?_eq_some_iff.mp hlast
  rw [List.foldl_concat]
  exact hmerge _ last

end Fold

/-! ### OpenAI -/

theorem mergeInputTokenDetails_count (current incoming : InputTokenDetails) (count : InputCount) :
    (mergeInputTokenDetails current incoming).count count
      = overlay (current.count count) (incoming.count count) := by
  cases count <;> rfl

theorem mergeCachedTokenDetails_count (current incoming : Option CachedTokenDetails)
    (count : CachedCount) : ((mergeCachedTokenDetails current incoming).getD {}).count count
      = ((incoming.getD {}).count count <|> (current.getD {}).count count) := by
  cases incoming with
  | none => cases count <;> simp [mergeCachedTokenDetails, CachedTokenDetails.count]
  | some details => cases count <;> rfl

theorem not_reports {d : InputTokenDetails} (h : d.reports = false) :
    (∀ count, d.count count ≤ 0) ∧ d.cachedTokensDetails = none := by
  simp only [InputTokenDetails.reports, Bool.or_eq_false_iff, decide_eq_false_iff_not,
    Option.isSome_eq_false_iff, Option.isNone_iff_eq_none] at h
  refine ⟨?_, h.2⟩
  intro count
  cases count <;> simp only [InputTokenDetails.count] <;> omega

theorem mergeInputTokensDetails_count (current incoming : Option InputTokenDetails)
    (count : InputCount) : ((mergeInputTokensDetails current incoming).getD {}).count count
      = overlay ((current.getD {}).count count) ((incoming.getD {}).count count) := by
  cases incoming with
  | none => cases count <;> simp [mergeInputTokensDetails, InputTokenDetails.count, overlay]
  | some details =>
    cases h : details.reports with
    | true => simp [mergeInputTokensDetails, h, mergeInputTokenDetails_count]
    | false =>
      have hcount : ¬ details.count count > 0 := by
        have := (not_reports h).1 count
        omega
      simp [mergeInputTokensDetails, h, overlay, hcount]

theorem mergeInputTokensDetails_cached (current incoming : Option InputTokenDetails)
    (count : CachedCount) :
    (((mergeInputTokensDetails current incoming).getD {}).cachedTokensDetails.getD {}).count count
      = (((incoming.getD {}).cachedTokensDetails.getD {}).count count
          <|> ((current.getD {}).cachedTokensDetails.getD {}).count count) := by
  cases incoming with
  | none => cases count <;> simp [mergeInputTokensDetails, CachedTokenDetails.count]
  | some details =>
    cases h : details.reports with
    | true =>
      simp [mergeInputTokensDetails, h, mergeInputTokenDetails, mergeCachedTokenDetails_count]
    | false =>
      have hcached := (not_reports h).2
      cases count <;> simp [mergeInputTokensDetails, h, hcached, CachedTokenDetails.count]

theorem raiseTotal_eq (u : Usage) : u.raiseTotal = { u with
    totalTokens := max u.totalTokens
      (max (wrapInt64 (u.promptTokens + u.completionTokens))
        (wrapInt64 (u.inputTokens + u.outputTokens))) } := by
  cases u
  simp only [Usage.raiseTotal]
  split <;> dsimp only <;> split <;> simp only [Usage.mk.injEq, true_and, and_true] <;> omega

theorem raiseTotal_count (u : Usage) (count : UsageCount) :
    u.raiseTotal.count count = u.count count := by
  rw [raiseTotal_eq]
  cases count <;> rfl

theorem raiseTotal_cached (u : Usage) (ofInput : Bool) (count : CachedCount) :
    u.raiseTotal.cached ofInput count = u.cached ofInput count := by
  rw [raiseTotal_eq]
  rfl

theorem mergeUsage_count (current incoming : Usage) (count : UsageCount) :
    (mergeUsage current incoming).count count
      = overlay (current.count count) (incoming.count count) := by
  rw [mergeUsage, raiseTotal_count]
  cases count with
  | promptTokensDetails count => exact mergeInputTokenDetails_count _ _ count
  | inputTokensDetails count => exact mergeInputTokensDetails_count _ _ count
  | _ => rfl

theorem mergeUsage_cached (current incoming : Usage) (ofInput : Bool) (count : CachedCount) :
    (mergeUsage current incoming).cached ofInput count
      = (incoming.cached ofInput count <|> current.cached ofInput count) := by
  rw [mergeUsage, raiseTotal_cached]
  cases ofInput with
  | false => exact mergeCachedTokenDetails_count _ _ count
  | true => exact mergeInputTokensDetails_cached _ _ count

theorem mergeUsage_totalCovers (current incoming : Usage) :
    (mergeUsage current incoming).TotalCovers := by
  rw [mergeUsage, raiseTotal_eq]
  constructor
  · intro hfits
    have hwrap := wrapInt64_eq hfits
    dsimp only at hwrap ⊢
    omega
  · intro hfits
    have hwrap := wrapInt64_eq hfits
    dsimp only at hwrap ⊢
    omega

theorem mergeCachedTokenDetails_repeat (current incoming : Option CachedTokenDetails) :
    mergeCachedTokenDetails (mergeCachedTokenDetails current incoming) incoming
      = mergeCachedTokenDetails current incoming := by
  cases incoming with
  | none => rfl
  | some details =>
    obtain ⟨text, image, audio⟩ := details
    cases text <;> cases image <;> cases audio <;> rfl

theorem mergeInputTokenDetails_repeat (current incoming : InputTokenDetails) :
    mergeInputTokenDetails (mergeInputTokenDetails current incoming) incoming
      = mergeInputTokenDetails current incoming := by
  simp [mergeInputTokenDetails, overlay_overlay, mergeCachedTokenDetails_repeat]

theorem mergeInputTokensDetails_repeat (current incoming : Option InputTokenDetails) :
    mergeInputTokensDetails (mergeInputTokensDetails current incoming) incoming
      = mergeInputTokensDetails current incoming := by
  cases incoming with
  | none => rfl
  | some details =>
    cases h : details.reports with
    | true => simp [mergeInputTokensDetails, h, mergeInputTokenDetails_repeat]
    | false => simp [mergeInputTokensDetails, h]

theorem mergeOutputTokenDetails_repeat (current incoming : OutputTokenDetails) :
    mergeOutputTokenDetails (mergeOutputTokenDetails current incoming) incoming
      = mergeOutputTokenDetails current incoming := by
  simp [mergeOutputTokenDetails, overlay_overlay]

theorem max_overlay_max (current incoming bound : Int) :
    max (overlay (max (overlay current incoming) bound) incoming) bound
      = max (overlay current incoming) bound := by
  unfold overlay
  split <;> omega

theorem mergeUsage_repeat (current incoming : Usage) :
    mergeUsage (mergeUsage current incoming) incoming = mergeUsage current incoming := by
  simp only [mergeUsage, raiseTotal_eq, overlay_overlay, overlayText_overlayText,
    mergeInputTokenDetails_repeat, mergeInputTokensDetails_repeat, mergeOutputTokenDetails_repeat,
    max_overlay_max]

/-! ### Claude -/

theorem mergeClaudeUsage_plain {current incoming : ClaudeUsage} (h : incoming.Plain)
    (count : ClaudeCount) : (mergeClaudeUsage current incoming).count count
      = overlay (current.count count) (incoming.count count) := by
  unfold mergeClaudeUsage
  rw [h.noCacheCreation]
  cases count <;> rfl

theorem mergeServerToolUse_repeat (current incoming : Option ClaudeServerToolUse) :
    mergeServerToolUse (mergeServerToolUse current incoming) incoming
      = mergeServerToolUse current incoming := by
  cases incoming with
  | none => rfl
  | some use => simp [mergeServerToolUse, overlay_overlay]

theorem mergeClaudeUsage_repeat (current incoming : ClaudeUsage) :
    mergeClaudeUsage (mergeClaudeUsage current incoming) incoming
      = mergeClaudeUsage current incoming := by
  unfold mergeClaudeUsage
  cases incoming.cacheCreation with
  | none => simp only [overlay_overlay, mergeServerToolUse_repeat]
  | some cacheCreation => simp only [overlay_overlay, mergeServerToolUse_repeat]

/-! ### Gemini -/

section Modalities

variable {modality : String}

theorem modalitySum_append (front back : List GeminiTokensDetails) :
    modalitySum modality (front ++ back)
      = modalitySum modality front + modalitySum modality back := by
  simp [modalitySum, List.sum_append]

theorem modalitySum_cons (detail : GeminiTokensDetails) (details : List GeminiTokensDetails) :
    modalitySum modality (detail :: details)
      = (if normalizeGeminiModality detail.modality = modality then detail.tokenCount else 0)
        + modalitySum modality details := by
  unfold modalitySum
  by_cases h : normalizeGeminiModality detail.modality = modality
  · simp [h]
  · simp [h]

variable {details : List GeminiTokensDetails}

theorem modalitySum_filter_pos (h : ∀ detail ∈ details, 0 ≤ detail.tokenCount) :
    modalitySum modality (details.filter fun detail => detail.tokenCount > 0)
      = modalitySum modality details := by
  induction details with
  | nil => rfl
  | cons detail details ih =>
    have hdetail : 0 ≤ detail.tokenCount := h detail (by simp)
    have hrest := ih fun detail hmem => h detail (by simp [hmem])
    rw [List.filter_cons]
    by_cases hpos : detail.tokenCount > 0
    · simp [hpos, modalitySum_cons, hrest]
    · have hzero : detail.tokenCount = 0 := by omega
      simp [hzero, modalitySum_cons, hrest]

theorem modalitySum_pos_iff (h : ∀ detail ∈ details, 0 ≤ detail.tokenCount) :
    0 ≤ modalitySum modality details ∧
      (0 < modalitySum modality details ↔ reported details modality = true) := by
  induction details with
  | nil => simp [modalitySum, reported]
  | cons detail details ih =>
    have hdetail : 0 ≤ detail.tokenCount := h detail (by simp)
    obtain ⟨hnonneg, hiff⟩ := ih fun detail hmem => h detail (by simp [hmem])
    have hcons : reported (detail :: details) modality
        = (decide (detail.tokenCount > 0) &&
            decide (normalizeGeminiModality detail.modality = modality)
          || reported details modality) := rfl
    rw [modalitySum_cons, hcons, Bool.or_eq_true, ← hiff]
    by_cases hmodality : normalizeGeminiModality detail.modality = modality
    · simp only [hmodality, if_true, decide_true, Bool.and_true, decide_eq_true_eq]
      omega
    · simpa [hmodality] using hnonneg

theorem modalitySum_kept (current incoming : List GeminiTokensDetails) :
    modalitySum modality
        (current.filter fun detail => !reported incoming (normalizeGeminiModality detail.modality))
      = if reported incoming modality = true then 0 else modalitySum modality current := by
  induction current with
  | nil => simp [modalitySum]
  | cons detail current ih =>
    rw [List.filter_cons]
    by_cases hmodality : normalizeGeminiModality detail.modality = modality
    · rw [hmodality]
      cases hreported : reported incoming modality with
      | true => simpa [hreported] using ih
      | false => simpa [hreported, modalitySum_cons, hmodality] using ih
    · split
      · simpa [modalitySum_cons, hmodality] using ih
      · simpa [modalitySum_cons, hmodality] using ih

theorem mergeGeminiTokenDetails_sum (current : List GeminiTokensDetails)
    {incoming : List GeminiTokensDetails} (h : ∀ detail ∈ incoming, 0 ≤ detail.tokenCount) :
    modalitySum modality (mergeGeminiTokenDetails current incoming)
      = overlay (modalitySum modality current) (modalitySum modality incoming) := by
  obtain ⟨hnonneg, hiff⟩ := @modalitySum_pos_iff modality _ h
  rw [mergeGeminiTokenDetails, modalitySum_append, modalitySum_kept, modalitySum_filter_pos h,
    overlay]
  simp only [← hiff, gt_iff_lt]
  split <;> omega

theorem mergeGeminiTokenDetails_repeat (current incoming : List GeminiTokensDetails) :
    mergeGeminiTokenDetails (mergeGeminiTokenDetails current incoming) incoming
      = mergeGeminiTokenDetails current incoming := by
  have hnew : ∀ detail ∈ incoming.filter (fun detail => detail.tokenCount > 0),
      ¬ (!reported incoming (normalizeGeminiModality detail.modality)) = true := by
    intro detail hmem
    obtain ⟨hmem, hpos⟩ := List.mem_filter.mp hmem
    simp only [Bool.not_eq_true, Bool.not_eq_false', reported, List.any_eq_true]
    exact ⟨detail, hmem, by simpa using hpos⟩
  unfold mergeGeminiTokenDetails
  rw [List.filter_append, List.filter_filter, List.filter_eq_nil_iff.mpr hnew, List.append_nil]
  simp only [Bool.and_self]

end Modalities

theorem gemini_raiseTotal_eq (u : GeminiUsage) :
    u.raiseTotal = { u with totalTokenCount := max u.totalTokenCount (wrapInt64 u.sum) } := by
  unfold GeminiUsage.raiseTotal
  dsimp only
  split
  · rw [Int.max_eq_right (by omega)]
  · rw [Int.max_eq_left (by omega)]

theorem GeminiUsage.Nonneg.count {u : GeminiUsage} (h : u.Nonneg) (count : GeminiCount) :
    0 ≤ u.count count := by
  cases count with
  | promptTokenCount => exact h.promptTokenCount
  | toolUsePromptTokenCount => exact h.toolUsePromptTokenCount
  | candidatesTokenCount => exact h.candidatesTokenCount
  | cachedContentTokenCount => exact h.cachedContentTokenCount
  | modality part modality => exact (modalitySum_pos_iff (h.details part)).1

theorem mergeGeminiUsage_count {current incoming : GeminiUsage} (h : incoming.Nonneg)
    (count : GeminiCount) : (mergeGeminiUsage current incoming).count count
      = overlay (current.count count) (incoming.count count) := by
  rw [mergeGeminiUsage, gemini_raiseTotal_eq]
  cases count with
  | modality part modality =>
    have hdetails := h.details part
    cases part <;> exact mergeGeminiTokenDetails_sum _ hdetails
  | _ => rfl

theorem mergeGeminiUsage_thoughts {current incoming : GeminiUsage} (h : incoming.Nonneg) :
    (mergeGeminiUsage current incoming).thoughtsTokenCount
      = if incoming.candidatesTokenCount ≠ 0 || incoming.thoughtsTokenCount ≠ 0 then
          incoming.thoughtsTokenCount
        else current.thoughtsTokenCount := by
  have hcandidates := h.candidatesTokenCount
  rw [mergeGeminiUsage, gemini_raiseTotal_eq]
  dsimp only
  rw [overlay_eq h.thoughtsTokenCount]
  by_cases hzero : incoming.candidatesTokenCount = 0
  · simp [hzero]
  · have hpos : incoming.candidatesTokenCount > 0 := by omega
    simp [hzero, hpos]

theorem mergeGeminiUsage_totalCovers (current incoming : GeminiUsage) :
    (mergeGeminiUsage current incoming).TotalCovers := by
  rw [mergeGeminiUsage, gemini_raiseTotal_eq]
  intro hfits
  exact (wrapInt64_eq hfits).ge.trans (Int.le_max_right _ _)

theorem mergeGeminiUsage_repeat (current incoming : GeminiUsage) :
    mergeGeminiUsage (mergeGeminiUsage current incoming) incoming
      = mergeGeminiUsage current incoming := by
  have hpair : ∀ merged : Int, (if incoming.candidatesTokenCount > 0 then
        incoming.thoughtsTokenCount
      else overlay (if incoming.candidatesTokenCount > 0 then incoming.thoughtsTokenCount
        else overlay merged incoming.thoughtsTokenCount) incoming.thoughtsTokenCount)
      = if incoming.candidatesTokenCount > 0 then incoming.thoughtsTokenCount
        else overlay merged incoming.thoughtsTokenCount := by
    intro merged
    split
    · rfl
    · exact overlay_overlay _ _
  simp only [mergeGeminiUsage, gemini_raiseTotal_eq, GeminiUsage.sum, overlay_overlay, hpair,
    mergeGeminiTokenDetails_repeat, max_overlay_max]

theorem lastThoughts_concat (seen : List GeminiUsage) (last : GeminiUsage) :
    lastThoughts (seen ++ [last])
      = if last.candidatesTokenCount ≠ 0 || last.thoughtsTokenCount ≠ 0 then
          last.thoughtsTokenCount
        else lastThoughts seen := by
  unfold lastThoughts
  rw [List.reverse_concat, List.find?_cons]
  cases h : (decide (last.candidatesTokenCount ≠ 0) || decide (last.thoughtsTokenCount ≠ 0)) with
  | true => simp
  | false => simp

theorem foldl_lastThoughts {first : GeminiUsage} (rest : List GeminiUsage)
    (hgood : ∀ u ∈ first :: rest, u.Nonneg) :
    (rest.foldl mergeGeminiUsage first).thoughtsTokenCount = lastThoughts (first :: rest) := by
  refine foldl_report lastThoughts ?_ ?_ rest hgood
  · intro first _
    by_cases h : first.thoughtsTokenCount = 0
    · simp [lastThoughts, h, List.find?_cons]
      split <;> simp [h]
    · simp [lastThoughts, h]
  · intro seen current last hlast hread
    rw [mergeGeminiUsage_thoughts hlast, lastThoughts_concat, hread]

/-! ### Payloads -/

section Dialect

variable {dialect : Dialect} {source semantic : String}

variable {name : String} {current incoming : BillingUsage}

theorem compatible_of {current incoming : String}
    (hcurrent : current = "" ∨ equalFold current name = true)
    (hincoming : incoming = "" ∨ equalFold incoming name = true) :
    compatible current incoming = true := by
  unfold compatible
  rcases hcurrent with h | hcurrent
  · simp [h]
  rcases hincoming with h | hincoming
  · simp [h]
  · simp only [equalFold, beq_iff_eq] at hcurrent hincoming
    simp [equalFold, hcurrent, hincoming]

theorem overlayText_of {current incoming : String}
    (hcurrent : current = "" ∨ equalFold current name = true)
    (hincoming : incoming = "" ∨ equalFold incoming name = true) :
    overlayText current incoming = "" ∨ equalFold (overlayText current incoming) name = true := by
  unfold overlayText
  split
  · exact hincoming
  · exact hcurrent

theorem sameBillingUsageDialect_of (hcurrent : current.Of dialect source semantic)
    (hincoming : incoming.Of dialect source semantic) :
    sameBillingUsageDialect current incoming = true := by
  simp only [sameBillingUsageDialect, compatible_of hcurrent.source hincoming.source,
    compatible_of hcurrent.semantic hincoming.semantic, hcurrent.openAIUsage,
    hincoming.openAIUsage, hcurrent.claudeUsage, hincoming.claudeUsage,
    hcurrent.geminiUsageMetadata, hincoming.geminiUsageMetadata]
  cases dialect <;> rfl

theorem BillingUsage.Of.payload {b : BillingUsage} (h : b.Of dialect source semantic) :
    match dialect with
    | .openAI => ∃ usage, b.openAIUsage = some usage ∧ b.claudeUsage = none ∧
        b.geminiUsageMetadata = none
    | .claude => ∃ usage, b.openAIUsage = none ∧ b.claudeUsage = some usage ∧
        b.geminiUsageMetadata = none
    | .gemini => ∃ usage, b.openAIUsage = none ∧ b.claudeUsage = none ∧
        b.geminiUsageMetadata = some usage := by
  obtain ⟨-, -, hopenAI, hclaude, hgemini⟩ := h
  cases dialect with
  | openAI =>
    obtain ⟨usage, husage⟩ := Option.isSome_iff_exists.mp hopenAI
    exact ⟨usage, husage, by simpa using hclaude, by simpa using hgemini⟩
  | claude =>
    obtain ⟨usage, husage⟩ := Option.isSome_iff_exists.mp hclaude
    exact ⟨usage, by simpa using hopenAI, husage, by simpa using hgemini⟩
  | gemini =>
    obtain ⟨usage, husage⟩ := Option.isSome_iff_exists.mp hgemini
    exact ⟨usage, by simpa using hopenAI, by simpa using hclaude, husage⟩

theorem mergeBillingUsage_of (hcurrent : current.Of dialect source semantic)
    (hincoming : incoming.Of dialect source semantic) :
    (mergeBillingUsage (some current) incoming).Of dialect source semantic ∧
      (mergeBillingUsage (some current) incoming).openAIUsage = current.openAIUsage.map
        (fun usage => incoming.openAIUsage.elim usage (mergeUsage usage)) ∧
      (mergeBillingUsage (some current) incoming).claudeUsage = current.claudeUsage.map
        (fun usage => incoming.claudeUsage.elim usage (mergeClaudeUsage usage)) ∧
      (mergeBillingUsage (some current) incoming).geminiUsageMetadata =
        current.geminiUsageMetadata.map
          (fun usage => incoming.geminiUsageMetadata.elim usage (mergeGeminiUsage usage)) := by
  have hsame := sameBillingUsageDialect_of hcurrent hincoming
  have hsource := overlayText_of hcurrent.source hincoming.source
  have hsemantic := overlayText_of hcurrent.semantic hincoming.semantic
  have hpayload := hcurrent.payload
  have hnew := hincoming.payload
  cases dialect with
  | openAI =>
    obtain ⟨usage, h₁, h₂, h₃⟩ := hpayload
    obtain ⟨new, h₄, h₅, h₆⟩ := hnew
    simp only [mergeBillingUsage, hsame, h₁, h₂, h₃, h₄]
    exact ⟨⟨hsource, hsemantic, rfl, rfl, rfl⟩, rfl, rfl, rfl⟩
  | claude =>
    obtain ⟨usage, h₁, h₂, h₃⟩ := hpayload
    obtain ⟨new, h₄, h₅, h₆⟩ := hnew
    simp only [mergeBillingUsage, hsame, h₁, h₂, h₃, h₅]
    exact ⟨⟨hsource, hsemantic, rfl, rfl, rfl⟩, rfl, rfl, rfl⟩
  | gemini =>
    obtain ⟨usage, h₁, h₂, h₃⟩ := hpayload
    obtain ⟨new, h₄, h₅, h₆⟩ := hnew
    simp only [mergeBillingUsage, hsame, h₁, h₂, h₃, h₆]
    exact ⟨⟨hsource, hsemantic, rfl, rfl, rfl⟩, rfl, rfl, rfl⟩

theorem mergeBillingUsages_payload {α : Type} {payload : BillingUsage → Option α}
    {merge : α → α → α}
    (hmerge : ∀ current incoming : BillingUsage, current.Of dialect source semantic →
      incoming.Of dialect source semantic →
      payload (mergeBillingUsage (some current) incoming)
        = (payload current).map fun usage => (payload incoming).elim usage (merge usage))
    {first : BillingUsage} (rest : List BillingUsage)
    (h : ∀ b ∈ first :: rest, b.Of dialect source semantic) :
    payload (mergeBillingUsages first rest)
      = (payload first).map ((rest.filterMap payload).foldl merge) := by
  unfold mergeBillingUsages
  induction rest generalizing first with
  | nil => simp
  | cons incoming rest ih =>
    have hfirst := h first (by simp)
    have hincoming := h incoming (by simp)
    have hrest : ∀ b ∈ mergeBillingUsage (some first) incoming :: rest,
        b.Of dialect source semantic := by
      intro b hb
      rcases List.mem_cons.mp hb with rfl | hb
      · exact (mergeBillingUsage_of hfirst hincoming).1
      · exact h b (by simp [hb])
    rw [List.foldl_cons, ih hrest, hmerge first incoming hfirst hincoming]
    cases payload first with
    | none => rfl
    | some usage =>
      cases hpayload : payload incoming with
      | none => simp [hpayload]
      | some new => simp [hpayload]

end Dialect

/-! ### The snapshots of one dialect -/

/-- Merged snapshots report of every count what was last said of it, and a snapshot that comes once
more changes nothing. -/
theorem merges_report :
    (∀ (first : Usage) (rest : List Usage), (∀ u ∈ first :: rest, u.Nonneg) →
      let merged := rest.foldl mergeUsage first
      (∀ count, merged.count count = lastNonZero ((first :: rest).map (·.count count))) ∧
      (∀ ofInput count, merged.cached ofInput count
        = lastReported ((first :: rest).map (·.cached ofInput count))) ∧
      (rest ≠ [] → merged.TotalCovers) ∧
      ∀ last ∈ rest.getLast?, mergeUsage merged last = merged) ∧
    (∀ (first : ClaudeUsage) (rest : List ClaudeUsage), (∀ u ∈ first :: rest, u.Plain) →
      let merged := rest.foldl mergeClaudeUsage first
      (∀ count, merged.count count = lastNonZero ((first :: rest).map (·.count count))) ∧
      ∀ last ∈ rest.getLast?, mergeClaudeUsage merged last = merged) ∧
    (∀ (first : GeminiUsage) (rest : List GeminiUsage), (∀ u ∈ first :: rest, u.Nonneg) →
      let merged := rest.foldl mergeGeminiUsage first
      (∀ count, merged.count count = lastNonZero ((first :: rest).map (·.count count))) ∧
      merged.thoughtsTokenCount = lastThoughts (first :: rest) ∧
      (rest ≠ [] → merged.TotalCovers) ∧
      ∀ last ∈ rest.getLast?, mergeGeminiUsage merged last = merged) ∧
    ∀ (dialect : Dialect) (source semantic : String) (first : BillingUsage)
      (rest : List BillingUsage), (∀ b ∈ first :: rest, b.Of dialect source semantic) →
      let merged := mergeBillingUsages first rest
      merged.openAIUsage
        = first.openAIUsage.map ((rest.filterMap (·.openAIUsage)).foldl mergeUsage) ∧
      merged.claudeUsage
        = first.claudeUsage.map ((rest.filterMap (·.claudeUsage)).foldl mergeClaudeUsage) ∧
      merged.geminiUsageMetadata = first.geminiUsageMetadata.map
        ((rest.filterMap (·.geminiUsageMetadata)).foldl mergeGeminiUsage) := by
  refine ⟨?_, ?_, ?_, ?_⟩
  · intro first rest hgood
    refine ⟨?_, ?_, foldl_of_merge mergeUsage_totalCovers first, ?_⟩
    · intro count
      refine foldl_lastNonZero (fun u hu => hu count) ?_ rest hgood
      exact fun current incoming _ => mergeUsage_count current incoming count
    · intro ofInput count
      refine foldl_lastReported (·.cached ofInput count) ?_ first rest
      exact fun current incoming => mergeUsage_cached current incoming ofInput count
    · intro last hlast
      exact foldl_repeat mergeUsage_repeat first hlast
  · intro first rest hgood
    refine ⟨?_, ?_⟩
    · intro count
      refine foldl_lastNonZero (fun u hu => hu.count count) ?_ rest hgood
      exact fun current incoming hincoming => mergeClaudeUsage_plain hincoming count
    · intro last hlast
      exact foldl_repeat mergeClaudeUsage_repeat first hlast
  · intro first rest hgood
    refine ⟨?_, foldl_lastThoughts rest hgood,
      foldl_of_merge mergeGeminiUsage_totalCovers first, ?_⟩
    · intro count
      refine foldl_lastNonZero (fun u hu => hu.count count) ?_ rest hgood
      exact fun current incoming hincoming => mergeGeminiUsage_count hincoming count
    · intro last hlast
      exact foldl_repeat mergeGeminiUsage_repeat first hlast
  · intro dialect source semantic first rest h
    refine ⟨mergeBillingUsages_payload ?_ rest h, mergeBillingUsages_payload ?_ rest h,
      mergeBillingUsages_payload ?_ rest h⟩
    · exact fun current incoming hcurrent hincoming =>
        (mergeBillingUsage_of hcurrent hincoming).2.1
    · exact fun current incoming hcurrent hincoming =>
        (mergeBillingUsage_of hcurrent hincoming).2.2.1
    · exact fun current incoming hcurrent hincoming =>
        (mergeBillingUsage_of hcurrent hincoming).2.2.2

/-- Two snapshots of a stream: the thoughts came before the candidates. -/
def thoughtSnapshots : List GeminiUsage :=
  [{ promptTokenCount := 10, thoughtsTokenCount := 100 },
    { promptTokenCount := 10, candidatesTokenCount := 150, totalTokenCount := 160 }]

theorem merges_report_sample :
    (thoughtSnapshots.foldl mergeGeminiUsage {}).count .candidatesTokenCount = 150 ∧
      (thoughtSnapshots.foldl mergeGeminiUsage {}).TotalCovers := by
  have hgood : ∀ u ∈ ({} : GeminiUsage) :: thoughtSnapshots, u.Nonneg := by
    intro u hu
    simp only [thoughtSnapshots, List.mem_cons, List.not_mem_nil, or_false] at hu
    rcases hu with rfl | rfl | rfl <;>
      exact ⟨by decide, by decide, by decide, by decide, by decide,
        fun part => by cases part <;> decide⟩
  obtain ⟨hcount, -, htotal, -⟩ := merges_report.2.2.1 {} thoughtSnapshots hgood
  exact ⟨(hcount .candidatesTokenCount).trans rfl, htotal (by decide)⟩

/-- Two snapshots that say how many of the cached tokens were text: first five, then none. -/
def cachedSnapshots : List Usage :=
  [{ promptTokensDetails := { cachedTokensDetails := some { textTokens := some 5 } } },
    { promptTokensDetails := { cachedTokensDetails := some { textTokens := some 0 } } }]

def hugeUsage : Usage := { promptTokens := 5 * 10 ^ 18, completionTokens := 5 * 10 ^ 18 }

/-- Where the merges do not report what was said last, or a total that covers the rest: thoughts are
replaced together with the candidates, and optional counts by an explicit zero; a first snapshot,
and a first payload, keep their total until they come once more; and a sum may pass an `int`. -/
theorem merge_exceptions :
    ((thoughtSnapshots.foldl mergeGeminiUsage {}).thoughtsTokenCount = 0 ∧
      lastNonZero (thoughtSnapshots.map (·.thoughtsTokenCount)) = 100) ∧
    ((cachedSnapshots.foldl mergeUsage {}).cached false .text = some 0 ∧
      lastNonZero (cachedSnapshots.map fun u => (u.cached false .text).getD 0) = 5) ∧
    (thoughtSnapshots.map fun u => (u.totalTokenCount, (mergeGeminiUsage u u).totalTokenCount))
      = [(0, 110), (160, 160)] ∧
    ((mergeBillingUsage none { openAIUsage := some { promptTokens := 10 } }).openAIUsage
        = some { promptTokens := 10 } ∧
      mergeUsage { promptTokens := 10 } { promptTokens := 10 }
        = { promptTokens := 10, totalTokens := 10 }) ∧
    (mergeUsage {} hugeUsage).totalTokens = 0 := by
  decide +kernel

end JulongApi.UsageMerge
