/-
What is written of an intent to an OpenAI request is read back from it.

A normalized intent is settled: to normalize it once more changes nothing.  So the state gives it
back, and the effort of the protocol is recognised as an echo of the state.  Only the summary is no
echo: one is asked for where an intent leaves the thoughts open.
-/
import JulongApi.ReasoningPivot
import JulongApi.Proofs.ModelModifier

namespace JulongApi.ModelModifier

/-! ### Settled intents -/

/-- An intent without a contradiction between its mode, its effort and its budget. -/
structure Intent.Settled (i : Intent) : Prop where
  none : i.effort = .none → i.mode = .disabled ∧ ∀ budget ∈ i.budgetTokens, budget = 0
  budget : ∀ budget ∈ i.budgetTokens, -1 ≤ budget ∧
    (budget = 0 → i.mode = .disabled ∧ i.effort = .none) ∧
    (budget ≠ 0 → i.mode = .enabled ∨ i.mode = .adaptive)

theorem sent_budgetTokens (i : Intent) :
    i.sent.budgetTokens = i.budgetTokens.map fun budget => max budget (-1) := by
  have hnone : ∀ j : Intent, (applyNone j).1.budgetTokens = j.budgetTokens := by
    intro j
    unfold applyNone
    split <;> rfl
  have happly : ∀ (j : Intent) (budget : Int),
      (applyBudget j budget).1.budgetTokens = j.budgetTokens := by
    intro j budget
    unfold applyBudget
    split
    · rfl
    · split
      · rfl
      · split <;> rfl
  rw [Intent.sent, hnone, applyBudgetTokens]
  cases hbudget : i.budgetTokens with
  | none => exact hbudget
  | some budget =>
    dsimp only
    rw [happly, clampBudget]
    split
    · exact congrArg some (Int.max_eq_right (by omega)).symm
    · exact hbudget.trans (congrArg some (Int.max_eq_left (by omega)).symm)

theorem sent_effort_of_zero {i : Intent} (hbudget : i.budgetTokens = some 0) :
    i.sent.effort = .none := by
  unfold Intent.sent applyBudgetTokens
  rw [hbudget]
  rfl

theorem sent_settled (i : Intent) : i.sent.Settled := by
  cases hbudget : i.budgetTokens with
  | none =>
    have hsent : i.sent.budgetTokens = none := by rw [sent_budgetTokens, hbudget]; rfl
    refine ⟨fun hnone => ⟨?_, by simp [hsent]⟩, by simp [hsent]⟩
    rw [sent_of_none hbudget] at hnone ⊢
    by_cases h : i.effort = .none
    · simp [h]
    · rw [if_neg h] at hnone
      exact absurd hnone h
  | some budget =>
    have hsent : i.sent.budgetTokens = some (max budget (-1)) := by
      rw [sent_budgetTokens, hbudget]; rfl
    by_cases hzero : budget = 0
    · subst hzero
      have hmax : max (0 : Int) (-1) = 0 := by decide
      rw [hmax] at hsent
      have hmode := sent_of_zero hbudget
      have heffort := sent_effort_of_zero hbudget
      refine ⟨fun _ => ⟨hmode, by simp [hsent]⟩, ?_⟩
      simp [hsent, hmode, heffort]
    · obtain ⟨hmode, hset, heffort⟩ := sent_of_budget hbudget hzero
      have hnone : i.sent.effort ≠ .none := by
        rw [heffort]
        split
        · decide
        · rename_i hoff
          exact fun h => hoff (Or.inl h)
      have hasks : i.sent.mode = .enabled ∨ i.sent.mode = .adaptive := by
        cases h : i.sent.mode with
        | unset => exact absurd h hset
        | enabled => exact Or.inl rfl
        | adaptive => exact Or.inr rfl
        | disabled => exact absurd h hmode
      refine ⟨fun h => absurd h hnone, ?_⟩
      rw [hsent]
      rintro _ ⟨⟩
      refine ⟨Int.le_max_right _ _, ?_, fun _ => hasks⟩
      intro h
      omega

theorem sent_of_settled {i : Intent} (h : i.Settled) : i.sent = i := by
  have hnone : (applyNone i).1 = i := by
    unfold applyNone
    by_cases heffort : i.effort = .none
    · rw [if_pos heffort, ← (h.none heffort).1]
    · rw [if_neg heffort]
  cases hbudget : i.budgetTokens with
  | none =>
    rw [Intent.sent, applyBudgetTokens, hbudget]
    exact hnone
  | some budget =>
    obtain ⟨hlow, hzero, hasks⟩ := h.budget budget hbudget
    have hclamp : clampBudget i budget = (i, budget, []) := if_neg (by omega)
    have happly : (applyBudget i budget).1 = i := by
      unfold applyBudget
      by_cases hz : budget = 0
      · obtain ⟨hmode, heffort⟩ := hzero hz
        rw [if_pos hz, ← hmode, ← heffort]
      · have hmode := hasks hz
        have hoff : ¬ (i.mode = .disabled ∨ i.effort = .none) := by
          rintro (hoff | hoff)
          · rcases hmode with hmode | hmode <;> rw [hmode] at hoff <;> cases hoff
          · exact hz ((h.none hoff).2 budget hbudget)
        have hunset : i.mode ≠ .unset := by
          rcases hmode with hmode | hmode <;> rw [hmode] <;> decide
        rw [if_neg hz, if_neg hoff, if_neg hunset]
    rw [Intent.sent, applyBudgetTokens, hbudget]
    dsimp only
    rw [hclamp]
    dsimp only
    rw [happly]
    exact hnone

/-! ### Reading what was written -/

theorem parseMode_text (m : Mode) : parseMode m.text = some m := by
  cases m <;> rfl

theorem readEffort_text (e : Effort) : readEffort e.text = .ok e := by
  rw [readEffort, parseEffort_text]
  rfl

theorem normalizeWritten_written (i : Intent) :
    ∃ ds, normalizeWritten i.written = .ok (i.sent, ds) := by
  unfold normalizeWritten Intent.written
  rw [readEffort_text, parseMode_text]
  exact ⟨_, rfl⟩

variable {w : WrittenIntent} {ds : List Diagnostic}

theorem normalizeWritten_settled {i : Intent} (h : normalizeWritten w = .ok (i, ds)) :
    i.Settled := by
  unfold normalizeWritten at h
  cases heffort : readEffort w.effort with
  | error e =>
    rw [heffort] at h
    cases h
  | ok effort =>
    rw [heffort] at h
    cases hmode : parseMode w.mode with
    | none =>
      rw [hmode] at h
      cases h
    | some mode =>
      rw [hmode] at h
      cases Except.ok.inj h
      exact sent_settled _

theorem normalizeWritten_of_settled {i : Intent} (h : i.Settled) :
    ∃ ds, normalizeWritten i.written = .ok (i, ds) := by
  obtain ⟨ds, hds⟩ := normalizeWritten_written i
  rw [sent_of_settled h] at hds
  exact ⟨ds, hds⟩

theorem effectiveEffort_eq {i : Intent} (h : normalizeWritten w = .ok (i, ds)) :
    effectiveEffort w = i.strength := by
  rw [effectiveEffort, h]

def Intent.pivot (i : Intent) : Intent := { i with source := .pivot, budgetSource := .pivot }

theorem state_pivot (i : Intent) : i.state.pivot = i.pivot.written := rfl

theorem Intent.Settled.pivot {i : Intent} (h : i.Settled) : i.pivot.Settled := ⟨h.none, h.budget⟩

theorem strength_of_isEmpty {i : Intent} (h : i.isEmpty = true) : i.strength = .unset := by
  obtain ⟨mode, effort, budget, thoughts, source, budgetSource⟩ := i
  simp only [Intent.isEmpty, Intent.hasStrength, Bool.and_eq_true, Bool.not_eq_true',
    Bool.or_eq_false_iff, decide_eq_false_iff_not, not_not, Option.isSome_eq_false_iff,
    Option.isNone_iff_eq_none] at h
  obtain ⟨⟨⟨rfl, rfl⟩, rfl⟩, -⟩ := h
  rfl

/-- What the protocol says of the thoughts. -/
def Intent.ofThoughts (thoughts : Option Bool) : Intent :=
  { Intent.zero with source := .explicit, includeThoughts := thoughts }

theorem ofThoughts_settled (thoughts : Option Bool) : (Intent.ofThoughts thoughts).Settled :=
  ⟨(fun h => nomatch h), (fun _ h => nomatch h)⟩

theorem withoutEcho_explicit {pivot : WrittenIntent} {e : Effort} (h : effectiveEffort pivot = e) :
    ∃ i, explicitIntent (Intent.ofThoughts none) e.text = .ok i ∧
      withoutEcho i e.text pivot = Intent.ofThoughts none ∧
      ∀ thoughts, withoutEcho { i with includeThoughts := thoughts } e.text pivot
        = Intent.ofThoughts thoughts := by
  by_cases hunset : e = .unset
  · subst hunset
    exact ⟨Intent.ofThoughts none, rfl, if_neg fun h => h.1 rfl, fun _ => if_neg fun h => h.1 rfl⟩
  · have htext : e.text ≠ "" := by
      cases e with
      | unset => exact absurd rfl hunset
      | _ => decide
    have hecho : e.text ≠ "" ∧ e.text = (effectiveEffort pivot).text := ⟨htext, by rw [h]⟩
    unfold explicitIntent
    rw [if_neg htext, readEffort_text]
    exact ⟨_, rfl, if_pos hecho, fun _ => if_pos hecho⟩

section

variable (quote : String → String) (model : String) {i : Intent}

theorem mergeExplicit_isEmpty {first : Intent} (hfirst : first.Settled)
    (hempty : first.isEmpty = true) (h : i.Settled) :
    ∃ ds, mergeExplicit quote first.written i.written model = .ok (i, ds) := by
  obtain ⟨ds, hds⟩ := normalizeWritten_of_settled hfirst
  obtain ⟨ds', hds'⟩ := normalizeWritten_of_settled h
  refine ⟨ds ++ ds', ?_⟩
  unfold mergeExplicit
  rw [hds, hds']
  dsimp only [bind, Except.bind]
  rw [if_pos hempty]
  rfl

theorem mergeExplicit_thoughts (h : i.Settled) (hempty : i.isEmpty = false) :
    ∃ ds, mergeExplicit quote (Intent.ofThoughts (some true)).written i.written model
      = .ok ({ i with includeThoughts := some true }, ds) := by
  have hread : Intent.Settled { i with includeThoughts := some true } := ⟨h.none, h.budget⟩
  obtain ⟨ds, hds⟩ := normalizeWritten_of_settled (ofThoughts_settled (some true))
  obtain ⟨ds', hds'⟩ := normalizeWritten_of_settled h
  obtain ⟨ds'', hds''⟩ := normalizeWritten_of_settled hread
  refine ⟨ds ++ ds' ++ [] ++ [] ++ ds'', ?_⟩
  unfold mergeExplicit
  rw [hds, hds']
  show (if i.isEmpty = true then _ else _) = _
  rw [if_neg (by simp [hempty])]
  show (normalizeWritten (Intent.written { i with includeThoughts := some true }) >>= _) = _
  rw [hds'']
  rfl

/-! ### Round trips -/

def Intent.Same (i j : Intent) : Prop :=
  i.mode = j.mode ∧ i.effort = j.effort ∧ i.budgetTokens = j.budgetTokens ∧
    i.includeThoughts = j.includeThoughts

/-- A summary is asked for: with an effort, unless the thoughts are not wanted. -/
def Intent.asksSummary (i : Intent) : Prop :=
  i.strength ≠ .unset ∧ i.strength ≠ .none ∧ i.includeThoughts ≠ some false

instance (i : Intent) : Decidable i.asksSummary :=
  inferInstanceAs (Decidable (_ ∧ _ ∧ _))

theorem same_of_isEmpty (hempty : i.isEmpty = true) : (Intent.ofThoughts none).Same i := by
  simp only [Intent.isEmpty, Intent.hasStrength, Bool.and_eq_true, Bool.not_eq_true',
    Bool.or_eq_false_iff, decide_eq_false_iff_not, not_not, Option.isSome_eq_false_iff,
    Option.isNone_iff_eq_none] at hempty
  obtain ⟨⟨⟨hmode, heffort⟩, hbudget⟩, hthoughts⟩ := hempty
  exact ⟨hmode.symm, heffort.symm, hbudget.symm, hthoughts.symm⟩

theorem chat_round_trip (h : i.Settled) (hw : normalizeWritten w = .ok (i, ds)) {req : ChatRequest}
    (heffort : req.reasoningEffort = "") (hreasoning : req.reasoning = none)
    (hstate : req.reasoningConversion = none) :
    ∃ written read ds', applyToOpenAIChat req w = .ok written ∧
      fromOpenAIChat quote written = .ok (read, ds') ∧ read.Same i := by
  obtain ⟨model, reasoningEffort, reasoning, reasoningConversion⟩ := req
  subst heffort hreasoning hstate
  obtain ⟨dsᵢ, hi⟩ := normalizeWritten_of_settled h
  have hstrength : effectiveEffort i.written = i.strength := effectiveEffort_eq hi
  cases hempty : i.isEmpty with
  | true =>
    obtain ⟨ds', hds'⟩ := normalizeWritten_of_settled (ofThoughts_settled none)
    refine ⟨⟨model, "", none, none⟩, Intent.ofThoughts none, [] ++ ds', ?_, ?_,
      same_of_isEmpty hempty⟩
    · unfold applyToOpenAIChat
      rw [hw]
      dsimp only [bind, Except.bind]
      rw [hstrength, strength_of_isEmpty hempty, if_pos hempty]
      rfl
    · show (normalizeWritten (Intent.ofThoughts none).written >>= _) = _
      rw [hds']
      rfl
  | false =>
    obtain ⟨dsₚ, hp⟩ := normalizeWritten_of_settled h.pivot
    have hpivot : effectiveEffort i.pivot.written = i.strength :=
      (effectiveEffort_eq hp).trans rfl
    obtain ⟨j, hj, hecho, -⟩ := withoutEcho_explicit hpivot
    obtain ⟨ds', hmerge⟩ := mergeExplicit_isEmpty quote model
      (ofThoughts_settled none) rfl h.pivot
    refine ⟨⟨model, i.strength.text, none, some i.state⟩, i.pivot, [] ++ ds', ?_, ?_,
      rfl, rfl, rfl, rfl⟩
    · unfold applyToOpenAIChat
      rw [hw]
      dsimp only [bind, Except.bind]
      rw [hstrength, hempty]
      by_cases hunset : i.strength = .unset
      · rw [if_neg (not_not_intro hunset), hunset]
        rfl
      · rw [if_pos hunset]
        rfl
    · unfold fromOpenAIChat
      show (explicitIntent (Intent.ofThoughts none) i.strength.text >>= _) = _
      rw [hj]
      dsimp only [bind, Except.bind]
      rw [state_pivot, hecho, hmerge]
      rfl

theorem responses_round_trip (h : i.Settled) (hw : normalizeWritten w = .ok (i, ds))
    {req : ResponsesRequest} (hreasoning : req.reasoning = none)
    (hstate : req.reasoningConversion = none) :
    ∃ written read ds', applyToOpenAIResponses req w = .ok written ∧
      fromOpenAIResponses quote written = .ok (read, ds') ∧
      read.Same (if i.asksSummary then { i with includeThoughts := some true } else i) := by
  obtain ⟨model, reasoning, reasoningConversion⟩ := req
  subst hreasoning hstate
  obtain ⟨dsᵢ, hi⟩ := normalizeWritten_of_settled h
  obtain ⟨dsₚ, hp⟩ := normalizeWritten_of_settled h.pivot
  have hstrength : effectiveEffort i.written = i.strength := effectiveEffort_eq hi
  have hpivot : effectiveEffort i.pivot.written = i.strength :=
      (effectiveEffort_eq hp).trans rfl
  obtain ⟨j, hj, hecho, hthoughts⟩ := withoutEcho_explicit hpivot
  by_cases hunset : i.strength = .unset
  · have hasks : ¬ i.asksSummary := fun h => h.1 hunset
    have hzero : Intent.zero.Settled := ⟨(fun h => nomatch h), (fun _ h => nomatch h)⟩
    have happly : applyToOpenAIResponses ⟨model, none, none⟩ w
        = .ok ⟨model, none, if i.isEmpty then none else some i.state⟩ := by
      unfold applyToOpenAIResponses
      rw [hw]
      dsimp only [bind, Except.bind]
      rw [hstrength, if_neg (not_not_intro hunset)]
      cases i.isEmpty <;> rfl
    rw [if_neg hasks]
    cases hempty : i.isEmpty with
    | true =>
      rw [if_pos hempty] at happly
      obtain ⟨ds', hread⟩ := normalizeWritten_of_settled hzero
      exact ⟨_, Intent.zero, ds', happly, hread, same_of_isEmpty hempty⟩
    | false =>
      rw [hempty, if_neg (by decide)] at happly
      obtain ⟨ds', hmerge⟩ := mergeExplicit_isEmpty quote model hzero rfl h.pivot
      refine ⟨_, i.pivot, ds', happly, ?_, rfl, rfl, rfl, rfl⟩
      unfold fromOpenAIResponses
      dsimp only [bind, Except.bind]
      rw [state_pivot]
      exact hmerge
  · have hempty : i.isEmpty = false := by
      rw [Bool.eq_false_iff]
      exact fun h => hunset (strength_of_isEmpty h)
    have happly : applyToOpenAIResponses ⟨model, none, none⟩ w = .ok ⟨model, some
        ⟨i.strength.text, if i.asksSummary then "detailed" else ""⟩, some i.state⟩ := by
      have hsummary : (if i.strength = .none ∨ i.includeThoughts = some false then ""
          else "detailed") = if i.asksSummary then "detailed" else "" := by
        by_cases hoff : i.strength = .none ∨ i.includeThoughts = some false
        · rw [if_pos hoff, if_neg fun h => hoff.elim h.2.1 h.2.2]
        · rw [if_neg hoff, if_pos ⟨hunset, not_or.mp hoff⟩]
      unfold applyToOpenAIResponses
      rw [hw]
      dsimp only [bind, Except.bind]
      rw [hstrength, if_pos hunset, hsummary, hempty]
      rfl
    have hread : ∀ summary, Reasoning.intent ⟨i.strength.text, summary⟩
        = .ok (if summary ≠ "" then { j with includeThoughts := some true } else j) := by
      intro summary
      unfold Reasoning.intent
      show (explicitIntent (Intent.ofThoughts none) i.strength.text >>= _) = _
      rw [hj]
      dsimp only [bind, Except.bind]
      split <;> rfl
    by_cases hasks : i.asksSummary
    · rw [if_pos hasks] at happly ⊢
      obtain ⟨ds', hmerge⟩ := mergeExplicit_thoughts quote model h.pivot hempty
      refine ⟨_, { i.pivot with includeThoughts := some true }, ds', happly, ?_, rfl, rfl, rfl, rfl⟩
      unfold fromOpenAIResponses
      dsimp only
      rw [hread, if_pos (by decide)]
      dsimp only [bind, Except.bind, Option.map_some, Option.getD_some]
      rw [state_pivot, hthoughts, hmerge]
    · rw [if_neg hasks] at happly ⊢
      obtain ⟨ds', hmerge⟩ := mergeExplicit_isEmpty quote model
        (ofThoughts_settled none) rfl h.pivot
      refine ⟨_, i.pivot, ds', happly, ?_, rfl, rfl, rfl, rfl⟩
      unfold fromOpenAIResponses
      dsimp only
      rw [hread, if_neg (by decide)]
      dsimp only [bind, Except.bind, Option.map_some, Option.getD_some]
      rw [state_pivot, hecho, hmerge]

/-- What is written of an intent is read back; and a summary that is asked for is read as a wish for
the thoughts. -/
theorem pivot_round_trip {w : WrittenIntent} {ds : List Diagnostic}
    (hw : normalizeWritten w = .ok (i, ds)) :
    (∀ req : ChatRequest, req.reasoningEffort = "" → req.reasoning = none →
      req.reasoningConversion = none → ∃ written read ds', applyToOpenAIChat req w = .ok written ∧
        fromOpenAIChat quote written = .ok (read, ds') ∧ read.Same i) ∧
    ∀ req : ResponsesRequest, req.reasoning = none → req.reasoningConversion = none →
      ∃ written read ds', applyToOpenAIResponses req w = .ok written ∧
        fromOpenAIResponses quote written = .ok (read, ds') ∧
        read.Same (if i.asksSummary then { i with includeThoughts := some true } else i) :=
  ⟨fun _ => chat_round_trip quote (normalizeWritten_settled hw) hw,
    fun _ => responses_round_trip quote (normalizeWritten_settled hw) hw⟩

end

def writtenHigh : WrittenIntent :=
  { mode := "adaptive", effort := " HIGH", budgetTokens := some 16384 }

theorem pivot_round_trip_high :
    ∃ i, normalizeWritten writtenHigh = .ok (i, []) ∧
      (∃ written read ds', applyToOpenAIChat ⟨"m", "", none, none⟩ writtenHigh = .ok written ∧
        fromOpenAIChat id written = .ok (read, ds') ∧ read.Same i) ∧
      ∃ written read ds', applyToOpenAIResponses ⟨"m", none, none⟩ writtenHigh = .ok written ∧
        fromOpenAIResponses id written = .ok (read, ds') ∧
        read.Same (if i.asksSummary then { i with includeThoughts := some true } else i) := by
  have hw : normalizeWritten writtenHigh = .ok ({ Intent.zero with
      mode := .adaptive, effort := .high, budgetTokens := some 16384 }, []) := by
    decide +kernel
  exact ⟨_, hw, (pivot_round_trip id hw).1 ⟨"m", "", none, none⟩ rfl rfl rfl,
    (pivot_round_trip id hw).2 ⟨"m", none, none⟩ rfl rfl⟩

/-- An intent that leaves the thoughts open comes back from a Responses request with a wish for
them. -/
theorem thoughts_asked :
    (do
      let written ← applyToOpenAIResponses ⟨"m", none, none⟩ { effort := "high" }
      let (read, _) ← fromOpenAIResponses id written
      let (normalized, _) ← normalizeWritten { effort := "high" }
      return (read.includeThoughts, normalized.includeThoughts))
      = (.ok (some true, none) : Except IntentError _) := by
  decide +kernel

end JulongApi.ModelModifier
