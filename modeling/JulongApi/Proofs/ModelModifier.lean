/-
What is billed of a name is what is sent upstream, unless a budget stands after an effort `none`.

The two loops over the modifiers of a name agree wherever the request is accepted, since both leave
out what they cannot read only where the request is refused (`billModifier_of_applyModifier`).  So one
intent is resolved by two functions, and these differ on one kind of intent: `Intent.Overridden`.  Of
the two keys that count, no key counts twice, which leaves five forms of a name (`controls_cases`), and
one of them gives such an intent.
-/
import JulongApi.Lib.Except
import JulongApi.ModelModifier

namespace JulongApi.ModelModifier

/-! ### The mode that is sent -/

theorem parseEffort_text (e : Effort) : parseEffort e.text = .ok e := by
  have htext : toLower (trimSpace e.text) = e.text := by
    cases e <;> decide +kernel
  unfold parseEffort
  rw [htext]
  cases e <;> rfl

theorem toLower_text (e : Effort) : toLower e.text = e.text := by
  cases e <;> decide +kernel

/-- What `normalizeIntent` returns beside its diagnostics. -/
def Intent.sent (i : Intent) : Intent := (applyNone (applyBudgetTokens i).1).1

theorem normalizeIntent_eq (i : Intent) : ∃ ds, normalizeIntent i = .ok (i.sent, ds) := by
  unfold normalizeIntent
  rw [parseEffort_text]
  exact ⟨_, rfl⟩

theorem sent_of_none {i : Intent} (hbudget : i.budgetTokens = none) :
    i.sent = if i.effort = .none then { i with mode := .disabled } else i := by
  have hsame : (applyBudgetTokens i).1 = i := by
    unfold applyBudgetTokens
    rw [hbudget]
  unfold Intent.sent applyNone
  rw [hsame]
  by_cases hnone : i.effort = .none
  · rw [if_pos hnone, if_pos hnone]
  · rw [if_neg hnone, if_neg hnone]

theorem sent_of_zero {i : Intent} (hbudget : i.budgetTokens = some 0) : i.sent.mode = .disabled := by
  unfold Intent.sent applyBudgetTokens
  rw [hbudget]
  rfl

variable {budget : Int} {s t base modelName : String} {e : Effort} {modifiers : List Modifier}

theorem clampBudget_spec {i : Intent} (hzero : budget ≠ 0) :
    (clampBudget i budget).2.1 ≠ 0 ∧ (clampBudget i budget).1.mode = i.mode ∧
      (clampBudget i budget).1.effort = i.effort := by
  unfold clampBudget
  by_cases hlow : budget < -1
  · rw [if_pos hlow]
    exact ⟨show (-1 : Int) ≠ 0 by decide, rfl, rfl⟩
  · rw [if_neg hlow]
    exact ⟨hzero, rfl, rfl⟩

theorem applyBudget_spec {i : Intent} (hzero : budget ≠ 0) :
    (applyBudget i budget).1.mode ≠ .disabled ∧ (applyBudget i budget).1.mode ≠ .unset ∧
      (applyBudget i budget).1.effort =
        if i.effort = .none ∨ i.mode = .disabled then .unset else i.effort := by
  unfold applyBudget
  rw [if_neg hzero]
  by_cases hoff : i.effort = .none ∨ i.mode = .disabled
  · rw [if_pos hoff, if_pos hoff.symm]
    exact ⟨(fun h => nomatch h), (fun h => nomatch h), rfl⟩
  · rw [if_neg hoff, if_neg fun h => hoff (Or.symm h)]
    by_cases hunset : i.mode = .unset
    · rw [if_pos hunset]
      exact ⟨(fun h => nomatch h), (fun h => nomatch h), rfl⟩
    · rw [if_neg hunset]
      exact ⟨fun h => hoff (Or.inr h), hunset, rfl⟩

theorem sent_of_budget {i : Intent} (hbudget : i.budgetTokens = some budget) (hzero : budget ≠ 0) :
    i.sent.mode ≠ .disabled ∧ i.sent.mode ≠ .unset ∧
      i.sent.effort = if i.effort = .none ∨ i.mode = .disabled then .unset else i.effort := by
  obtain ⟨hclamped, hmode, heffort⟩ := clampBudget_spec (i := i) hzero
  have hspec := applyBudget_spec (i := (clampBudget i budget).1) hclamped
  rw [hmode, heffort] at hspec
  have happlied : (applyBudgetTokens i).1 =
      (applyBudget (clampBudget i budget).1 (clampBudget i budget).2.1).1 := by
    unfold applyBudgetTokens
    rw [hbudget]
  rw [← happlied] at hspec
  have hnone : (applyBudgetTokens i).1.effort ≠ .none := by
    rw [hspec.2.2]
    by_cases hoff : i.effort = .none ∨ i.mode = .disabled
    · rw [if_pos hoff]
      decide
    · rw [if_neg hoff]
      exact fun h => hoff (Or.inl h)
  unfold Intent.sent applyNone
  rw [if_neg hnone]
  exact hspec

/-! ### The names that are billed -/

/-- The names that say what is sent: none for a model of which nothing is asked. -/
def statedNames (base : String) (intent : Intent) : List String :=
  if intent.hasStrength = false then []
  else if intent.mode = .disabled then [base ++ "@thinking:off"]
  else if intent.effort = .unset then [base ++ "@thinking:on"]
  else [base ++ "@effort:" ++ intent.effort.text ++ "@thinking:on", base ++ "@thinking:on"]

/-- The names of a bill that says this of the thinking and of the effort. -/
def billedNames (base thinking effort : String) : List String :=
  (if effort ≠ "" then [base ++ "@effort:" ++ effort ++ "@thinking:" ++ thinking] else []) ++
    [base ++ "@thinking:" ++ thinking]

theorem append_ne_self (ht : t ≠ "") : s ++ t ≠ s := by
  intro h
  have hlength := congrArg String.length h
  rw [String.length_append] at hlength
  exact ht (String.length_eq_zero_iff.mp (by omega))

theorem append_ne_empty (hs : s ≠ "") : s ++ t ≠ "" := by
  intro h
  have hlength := congrArg String.length h
  rw [String.length_append, String.length_empty] at hlength
  exact hs (String.length_eq_zero_iff.mp (by omega))

theorem distinctNames_cons {tail : String} {seen rest : List String} (hbase : base ≠ "")
    (htail : tail ≠ "") (hseen : base ++ tail ∉ seen) :
    distinctNames base seen ((base ++ tail) :: rest) =
      (base ++ tail) :: distinctNames base ((base ++ tail) :: seen) rest := by
  have hcontains : ¬ seen.contains (base ++ tail) = true := by
    rw [List.contains_iff_mem]
    exact hseen
  rw [distinctNames, if_neg (not_or.mpr ⟨append_ne_empty hbase, append_ne_self htail⟩), if_neg hcontains]

theorem effortForm_ne_thinkingForm (base thinking effort : String) :
    base ++ "@thinking:" ++ thinking ≠ base ++ "@effort:" ++ effort ++ "@thinking:" ++ thinking := by
  intro h
  have hlength := congrArg String.length h
  simp only [String.length_append] at hlength
  have hthinking : "@thinking:".length = 10 := rfl
  have heffort' : "@effort:".length = 8 := rfl
  omega

theorem canonicalNamesFromIntent_eq {thinking effort : String} {i : Intent} (hbase : base ≠ "")
    (h : normalizeBillingThinking i = some (thinking, effort)) :
    canonicalNamesFromIntent base i = billedNames base thinking effort := by
  have hthinking : "@thinking:" ++ thinking ≠ "" := append_ne_empty (by decide)
  have hform : base ++ "@thinking:" ++ thinking = base ++ ("@thinking:" ++ thinking) :=
    String.append_assoc ..
  unfold canonicalNamesFromIntent billedNames
  rw [h]
  dsimp only
  rw [if_neg hbase, hform, if_pos (append_ne_self hthinking)]
  by_cases heffort : effort = ""
  · rw [if_neg fun h => h heffort, List.nil_append]
    exact distinctNames_cons hbase hthinking (List.not_mem_nil)
  · have heform : base ++ "@effort:" ++ effort ++ "@thinking:" ++ thinking =
        base ++ ("@effort:" ++ effort ++ "@thinking:" ++ thinking) := by
      simp only [String.append_assoc]
    have hne := effortForm_ne_thinkingForm base thinking effort
    rw [hform, heform] at hne
    have hetail : "@effort:" ++ effort ++ "@thinking:" ++ thinking ≠ "" := by
      rw [String.append_assoc, String.append_assoc]
      exact append_ne_empty (by decide)
    rw [if_pos heffort, heform]
    show distinctNames base [] (_ :: [_]) = [_, _]
    rw [distinctNames_cons hbase hetail List.not_mem_nil,
      distinctNames_cons hbase hthinking (by simpa using hne)]
    rfl

theorem canonicalNamesFromIntent_none {i : Intent} (h : normalizeBillingThinking i = none) :
    canonicalNamesFromIntent base i = [] := by
  unfold canonicalNamesFromIntent
  rw [h]

theorem billedNames_off (base : String) : billedNames base "off" "" = [base ++ "@thinking:off"] :=
  congrArg (fun name => [name]) (String.append_assoc ..)

theorem billedNames_on (base : String) : billedNames base "on" "" = [base ++ "@thinking:on"] :=
  congrArg (fun name => [name]) (String.append_assoc ..)

theorem billedNames_effort (base : String) (he : e ≠ .unset) :
    billedNames base "on" (toLower e.text) =
      [base ++ "@effort:" ++ e.text ++ "@thinking:on", base ++ "@thinking:on"] := by
  have htext : e.text ≠ "" := by
    cases e with
    | unset => exact absurd rfl he
    | _ => decide
  unfold billedNames
  rw [toLower_text, if_pos htext]
  simp only [String.append_assoc]
  rfl

/-! ### What is sent and what is billed -/

/-- A budget beats the effort `none` and the mode `disabled`. -/
def Intent.Overridden (i : Intent) : Prop :=
  (i.effort = .none ∨ i.mode = .disabled) ∧ ∃ budget, i.budgetTokens = some budget ∧ budget ≠ 0

theorem statedNames_off {i : Intent} (hmode : i.mode = .disabled) :
    statedNames base i = [base ++ "@thinking:off"] := by
  have hstrength : ¬ i.hasStrength = false := by
    simp [Intent.hasStrength, hmode]
  unfold statedNames
  rw [if_neg hstrength, if_pos hmode]

theorem statedNames_on {i : Intent} (hstrength : i.hasStrength = true)
    (hmode : i.mode ≠ .disabled) :
    statedNames base i =
      if i.effort = .unset then [base ++ "@thinking:on"]
      else [base ++ "@effort:" ++ i.effort.text ++ "@thinking:on", base ++ "@thinking:on"] := by
  unfold statedNames
  rw [if_neg (by simp [hstrength]), if_neg hmode]

theorem statedNames_sent_off {i : Intent} (hoff : i.effort = .none ∨ i.mode = .disabled) :
    statedNames base i.sent = [base ++ "@thinking:off"] ↔ ¬ i.Overridden := by
  cases hbudget : i.budgetTokens with
  | none =>
    have hmode : i.sent.mode = .disabled := by
      rw [sent_of_none hbudget]
      by_cases hnone : i.effort = .none
      · rw [if_pos hnone]
      · rw [if_neg hnone]
        exact hoff.resolve_left hnone
    refine iff_of_true (statedNames_off hmode) ?_
    rintro ⟨-, budget, hsome, -⟩
    rw [hbudget] at hsome
    cases hsome
  | some budget =>
    by_cases hzero : budget = 0
    · subst hzero
      refine iff_of_true (statedNames_off (sent_of_zero hbudget)) ?_
      rintro ⟨-, budget, hsome, hne⟩
      rw [hbudget] at hsome
      exact hne (Option.some.inj hsome).symm
    · obtain ⟨hmode, hset, heffort⟩ := sent_of_budget hbudget hzero
      rw [if_pos hoff] at heffort
      have hstrength : i.sent.hasStrength = true := by
        simp [Intent.hasStrength, hset]
      refine iff_of_false ?_ (not_not_intro ⟨hoff, budget, hbudget, hzero⟩)
      rw [statedNames_on hstrength hmode, if_pos heffort]
      intro h
      have htail := (String.append_right_inj base).mp (List.cons.inj h).1
      exact absurd htail (by decide)

theorem statedNames_sent_on (hbase : base ≠ "") {i : Intent}
    (hoff : ¬ (i.effort = .none ∨ i.mode = .disabled)) :
    canonicalNamesFromIntent base i = statedNames base i.sent := by
  have hmode : i.mode ≠ .disabled := fun h => hoff (Or.inr h)
  have hnone : i.effort ≠ .none := fun h => hoff (Or.inl h)
  by_cases hzero : i.budgetTokens = some 0
  · have hbilled : normalizeBillingThinking i = some ("off", "") := by
      unfold normalizeBillingThinking
      rw [if_neg hoff, if_pos hzero]
    rw [canonicalNamesFromIntent_eq hbase hbilled, billedNames_off,
      statedNames_off (sent_of_zero hzero)]
  · have hsent : i.sent.mode ≠ .disabled ∧ i.sent.effort = i.effort ∧
        (i.sent.hasStrength = true ↔ i.hasStrength = true) := by
      cases hbudget : i.budgetTokens with
      | none =>
        rw [sent_of_none hbudget, if_neg hnone]
        exact ⟨hmode, rfl, Iff.rfl⟩
      | some budget =>
        have hne : budget ≠ 0 := by
          intro h
          exact hzero (by rw [hbudget, h])
        obtain ⟨hsent, hset, heffort⟩ := sent_of_budget hbudget hne
        rw [if_neg hoff] at heffort
        exact ⟨hsent, heffort, by simp [Intent.hasStrength, hset, hbudget]⟩
    obtain ⟨hsent, heffort, hstrength⟩ := hsent
    by_cases hset : i.effort = .unset
    · by_cases hasked : i.mode = .enabled ∨ i.mode = .adaptive ∨ i.budgetTokens.isSome = true
      · have hbilled : normalizeBillingThinking i = some ("on", "") := by
          unfold normalizeBillingThinking
          rw [if_neg hoff, if_neg hzero, if_neg (not_not_intro hset), if_pos hasked]
        have hhas : i.hasStrength = true := by
          rcases hasked with h | h | h
          · simp [Intent.hasStrength, h]
          · simp [Intent.hasStrength, h]
          · simp [Intent.hasStrength, h]
        rw [canonicalNamesFromIntent_eq hbase hbilled, billedNames_on,
          statedNames_on (hstrength.mpr hhas) hsent, if_pos (heffort.trans hset)]
      · have hbilled : normalizeBillingThinking i = none := by
          unfold normalizeBillingThinking
          rw [if_neg hoff, if_neg hzero, if_neg (not_not_intro hset), if_neg hasked]
        have hhas : i.hasStrength = false := by
          obtain ⟨henabled, hadaptive, hbudget⟩ := not_or.mp hasked |>.imp_right not_or.mp
          cases hi : i.mode with
          | unset => simpa [Intent.hasStrength, hi, hset] using hbudget
          | enabled => exact absurd hi henabled
          | adaptive => exact absurd hi hadaptive
          | disabled => exact absurd hi hmode
        have hsentHas : i.sent.hasStrength = false := by
          rw [Bool.eq_false_iff]
          exact fun h => by simp [hstrength.mp h] at hhas
        rw [canonicalNamesFromIntent_none hbilled]
        unfold statedNames
        rw [if_pos hsentHas]
    · have hbilled : normalizeBillingThinking i = some ("on", toLower i.effort.text) := by
        unfold normalizeBillingThinking
        rw [if_neg hoff, if_neg hzero, if_pos hset]
      have hhas : i.hasStrength = true := by
        simp [Intent.hasStrength, hset]
      rw [canonicalNamesFromIntent_eq hbase hbilled, billedNames_effort base hset,
        statedNames_on (hstrength.mpr hhas) hsent, heffort, if_neg hset]

theorem canonicalNames_eq_iff (hbase : base ≠ "") (i : Intent) :
    canonicalNamesFromIntent base i = statedNames base i.sent ↔ ¬ i.Overridden := by
  by_cases hoff : i.effort = .none ∨ i.mode = .disabled
  · have hbilled : normalizeBillingThinking i = some ("off", "") := if_pos hoff
    rw [canonicalNamesFromIntent_eq hbase hbilled, billedNames_off, eq_comm]
    exact statedNames_sent_off hoff
  · exact iff_of_true (statedNames_sent_on hbase hoff) fun h => hoff h.1

/-! ### The two loops -/

/-- What the request reads where the bill would leave it out. -/
def Modifier.Readable (m : Modifier) : Prop :=
  (m.key = "thinking" → ∃ i, parseThinkingModifier m.value = some i) ∧
    (m.key = "effort" → ∃ e, parseEffort m.value = .ok e ∧ e ≠ .unset)

section

variable {F : Type} {lib : Library F}

theorem billModifier_of_applyModifier {parsed parsed' : Parsed F} {m : Modifier}
    (h : lib.applyModifier parsed m = .ok parsed') :
    billModifier (parsed.intent, parsed.hasThinking) m = (parsed'.intent, parsed'.hasThinking) ∧
      parsed'.base = parsed.base ∧ m.Readable := by
  unfold Library.applyModifier at h
  unfold billModifier Modifier.Readable
  dsimp only
  split at h
  · rename_i hkey
    rw [hkey]
    cases hvalue : parseThinkingModifier m.value with
    | none =>
      rw [hvalue] at h
      cases h
    | some intent =>
      rw [hvalue] at h
      cases h
      exact ⟨rfl, rfl, fun _ => ⟨intent, rfl⟩, fun h => absurd h (by decide)⟩
  · rename_i hkey
    rw [hkey]
    cases hvalue : parseEffort m.value with
    | error e =>
      rw [hvalue] at h
      cases h
    | ok effort =>
      rw [hvalue] at h
      cases effort with
      | unset => cases h
      | _ =>
        cases h
        exact ⟨rfl, rfl, fun h => absurd h (by decide), fun _ => ⟨_, rfl, by decide⟩⟩
  · rename_i hkey
    rw [hkey]
    cases hvalue : lib.parseFloat (trimSpace m.value) with
    | none =>
      rw [hvalue] at h
      cases h
    | some value =>
      rw [hvalue] at h
      cases h
      exact ⟨rfl, rfl, fun h => absurd h (by decide), fun h => absurd h (by decide)⟩
  · rename_i hkey
    rw [hkey]
    cases hvalue : lib.parseFloat (trimSpace m.value) with
    | none =>
      rw [hvalue] at h
      cases h
    | some value =>
      rw [hvalue] at h
      cases h
      exact ⟨rfl, rfl, fun h => absurd h (by decide), fun h => absurd h (by decide)⟩
  · cases h

theorem billing_of_explicit {name : String} {parsed : Parsed F}
    (h : parseExplicitModelModifiers lib name = .ok parsed) :
    billingIntentFromModifiers (parseModelModifiers name) = (parsed.intent, parsed.hasThinking) ∧
      parsed.base = (parseModelModifiers name).base ∧
      ∀ m ∈ rightmost (parseModelModifiers name).modifiers, m.Readable := by
  have hloop := foldlM_ok_induct
    (fun (p : Parsed F) read => read.foldl billModifier (Intent.zero, false) =
        (p.intent, p.hasThinking) ∧
      p.base = (parseModelModifiers name).base ∧ ∀ m ∈ read, m.Readable)
    (by
      rintro p read m p' ⟨hbill, hbase, hread⟩ hstep
      obtain ⟨hturn, hsame, hm⟩ := billModifier_of_applyModifier hstep
      refine ⟨?_, hsame.trans hbase, ?_⟩
      · rw [List.foldl_append, hbill]
        exact hturn
      · intro m' hm'
        rcases List.mem_append.mp hm' with hm' | hm'
        · exact hread m' hm'
        · exact List.mem_singleton.mp hm' ▸ hm)
    ⟨rfl, rfl, fun m hm => absurd hm List.not_mem_nil⟩ h
  exact hloop

end

/-! ### The modifiers that count -/

/-- The modifiers of a name that say how it reasons, without those that a later one replaces. -/
def controls (modifiers : List Modifier) : List Modifier :=
  (rightmost modifiers).filter fun m => m.key == "thinking" || m.key == "effort"

theorem rightmost_subset {m : Modifier} (h : m ∈ rightmost modifiers) : m ∈ modifiers := by
  induction modifiers with
  | nil => exact h
  | cons first rest ih =>
    unfold rightmost at h
    by_cases hlater : rest.any (·.key == first.key) = true
    · rw [if_pos hlater] at h
      exact List.mem_cons_of_mem _ (ih h)
    · rw [if_neg hlater] at h
      rcases List.mem_cons.mp h with rfl | h
      · exact List.mem_cons_self
      · exact List.mem_cons_of_mem _ (ih h)

theorem rightmost_nodup (modifiers : List Modifier) :
    ((rightmost modifiers).map Modifier.key).Nodup := by
  induction modifiers with
  | nil => exact List.nodup_nil
  | cons first rest ih =>
    unfold rightmost
    by_cases hlater : rest.any (·.key == first.key) = true
    · rw [if_pos hlater]
      exact ih
    · rw [if_neg hlater, List.map_cons, List.nodup_cons]
      refine ⟨?_, ih⟩
      intro hmem
      obtain ⟨m, hm, hkey⟩ := List.mem_map.mp hmem
      exact hlater (List.any_eq_true.mpr ⟨m, rightmost_subset hm, beq_iff_eq.mpr hkey⟩)

theorem controls_nodup (modifiers : List Modifier) :
    ((controls modifiers).map Modifier.key).Nodup :=
  (rightmost_nodup modifiers).sublist (List.filter_sublist.map _)

theorem controls_key {m : Modifier} (h : m ∈ controls modifiers) :
    m.key = "thinking" ∨ m.key = "effort" := by
  simpa using (List.mem_filter.mp h).2

theorem controls_cases (modifiers : List Modifier) :
    controls modifiers = [] ∨
    (∃ t, controls modifiers = [t] ∧ t.key = "thinking") ∨
    (∃ e, controls modifiers = [e] ∧ e.key = "effort") ∨
    (∃ t e, controls modifiers = [t, e] ∧ t.key = "thinking" ∧ e.key = "effort") ∨
    ∃ e t, controls modifiers = [e, t] ∧ e.key = "effort" ∧ t.key = "thinking" := by
  have hkey : ∀ m ∈ controls modifiers, m.key = "thinking" ∨ m.key = "effort" :=
    fun m hm => controls_key hm
  have hnodup := controls_nodup modifiers
  match hcontrols : controls modifiers with
  | [] => exact Or.inl rfl
  | [m] =>
    rw [hcontrols] at hkey
    rcases hkey m (by simp) with h | h
    · exact Or.inr (Or.inl ⟨m, rfl, h⟩)
    · exact Or.inr (Or.inr (Or.inl ⟨m, rfl, h⟩))
  | [first, second] =>
    rw [hcontrols] at hkey hnodup
    have hne : first.key ≠ second.key := by simpa using hnodup
    rcases hkey first (by simp) with h | h <;> rcases hkey second (by simp) with h' | h'
    · exact absurd (h.trans h'.symm) hne
    · exact Or.inr (Or.inr (Or.inr (Or.inl ⟨first, second, rfl, h, h'⟩)))
    · exact Or.inr (Or.inr (Or.inr (Or.inr ⟨first, second, rfl, h, h'⟩)))
    · exact absurd (h.trans h'.symm) hne
  | first :: second :: third :: rest =>
    rw [hcontrols] at hkey hnodup
    have hfirst := hkey first (by simp)
    have hsecond := hkey second (by simp)
    have hthird := hkey third (by simp)
    simp only [List.map_cons, List.nodup_cons, List.mem_cons, not_or] at hnodup
    obtain ⟨⟨h12, h13, -⟩, ⟨h23, -⟩, -⟩ := hnodup
    rcases hfirst with h1 | h1 <;> rcases hsecond with h2 | h2 <;> rcases hthird with h3 | h3 <;>
      simp_all

theorem billingIntentFromModifiers_eq (spec : Spec) :
    billingIntentFromModifiers spec =
      (controls spec.modifiers).foldl billModifier (Intent.zero, false) := by
  unfold billingIntentFromModifiers controls
  rw [List.foldl_filter]
  congr 1
  funext s m
  by_cases hkey : (m.key == "thinking" || m.key == "effort") = true
  · rw [if_pos hkey]
  · rw [if_neg hkey]
    unfold billModifier
    dsimp only
    split
    · rename_i h
      simp [h] at hkey
    · rename_i h
      simp [h] at hkey
    · rfl

/-! ### What the forms of a name give -/

theorem parseThinkingModifier_spec {raw : String} {i : Intent}
    (h : parseThinkingModifier raw = some i) :
    i.budgetTokens = none ∧ i.mode = .disabled ∨
      i.mode ≠ .disabled ∧ i.effort = .unset ∧ i.budgetTokens ≠ some 0 := by
  unfold parseThinkingModifier at h
  split at h
  · cases h
    exact Or.inr ⟨by decide, rfl, by decide⟩
  · cases h
    exact Or.inr ⟨by decide, rfl, by decide⟩
  · cases h
    exact Or.inl ⟨rfl, rfl⟩
  · split at h
    · cases h
    · rename_i budget _
      obtain ⟨hlow, h⟩ := Option.ite_none_left_eq_some.mp h
      by_cases hzero : budget = 0
      · rw [if_pos hzero] at h
        cases h
        exact Or.inl ⟨rfl, rfl⟩
      · rw [if_neg hzero] at h
        cases h
        exact Or.inr ⟨(fun h => nomatch h), rfl, fun h => hzero (Option.some.inj h)⟩

theorem not_overridden_of_none {i : Intent} (h : i.budgetTokens = none) : ¬ i.Overridden := by
  rintro ⟨-, budget, hsome, -⟩
  rw [h] at hsome
  cases hsome

theorem not_overridden_of_on {i : Intent} (heffort : i.effort ≠ .none) (hmode : i.mode ≠ .disabled) :
    ¬ i.Overridden := fun h => h.1.elim heffort hmode

/-- A name whose effort is `none` where a budget follows. -/
def BudgetOverNone (modifiers : List Modifier) : Prop :=
  ∃ e t, controls modifiers = [e, t] ∧ e.key = "effort" ∧ t.key = "thinking" ∧
    parseEffort e.value = .ok .none ∧ ∃ i, parseThinkingModifier t.value = some i ∧
      i.budgetTokens ≠ none

section

variable {i : Intent} {hasThinking : Bool} {m : Modifier}

theorem billModifier_effort_none (hkey : m.key = "effort") (h : parseEffort m.value = .ok .none) :
    billModifier (i, hasThinking) m =
      ({ Intent.zero with mode := .disabled, effort := .none, source := .suffix }, true) := by
  unfold billModifier
  dsimp only
  rw [hkey, h]
  rfl

theorem billModifier_effort (i : Intent) (hasThinking : Bool) (hkey : m.key = "effort")
    (h : parseEffort m.value = .ok e) (hset : e ≠ .unset) (hnone : e ≠ .none) :
    ∃ j, billModifier (i, hasThinking) m = (j, true) ∧ j.mode ≠ .disabled ∧ j.effort = e ∧
      j.budgetTokens = i.budgetTokens := by
  have hmode : (if i.mode = .unset ∨ i.mode = .disabled then Mode.enabled else i.mode) ≠
      .disabled := by
    by_cases hoff : i.mode = .unset ∨ i.mode = .disabled
    · rw [if_pos hoff]
      decide
    · rw [if_neg hoff]
      exact fun hd => hoff (Or.inr hd)
  refine ⟨{ i with mode := _, effort := e, source := .suffix }, ?_, hmode, rfl, rfl⟩
  unfold billModifier
  dsimp only
  rw [hkey, h]
  cases e with
  | unset => exact absurd rfl hset
  | none => exact absurd rfl hnone
  | _ => rfl

theorem billModifier_thinking {parsed : Intent} (hkey : m.key = "thinking")
    (h : parseThinkingModifier m.value = some parsed)
    (hfirst : hasThinking = false ∨ parsed.mode = .disabled) :
    billModifier (i, hasThinking) m = (parsed, true) := by
  have hand : ¬ (hasThinking = true ∧ parsed.mode ≠ .disabled) := by
    rintro ⟨hthinking, hmode⟩
    rcases hfirst with hfirst | hfirst
    · rw [hfirst] at hthinking
      cases hthinking
    · exact hmode hfirst
  unfold billModifier
  dsimp only
  rw [hkey, h]
  dsimp only
  rw [if_neg fun h => hand ⟨h.1, h.2.1⟩, if_neg hand]
  rfl

theorem billModifier_thinking_after {parsed : Intent} (hkey : m.key = "thinking")
    (h : parseThinkingModifier m.value = some parsed) (hmode : parsed.mode ≠ .disabled) :
    ∃ j, billModifier (i, true) m = (j, true) ∧ j.mode ≠ .disabled ∧ j.effort = i.effort ∧
      j.budgetTokens = if parsed.budgetTokens = none then i.budgetTokens else parsed.budgetTokens := by
  unfold billModifier
  dsimp only
  rw [hkey, h]
  dsimp only
  by_cases hbudget : parsed.budgetTokens = none
  · rw [if_pos ⟨rfl, hmode, hbudget⟩, if_pos hbudget]
    exact ⟨_, rfl, hmode, rfl, rfl⟩
  · rw [if_neg fun h => hbudget h.2.2, if_pos ⟨rfl, hmode⟩, if_neg hbudget]
    exact ⟨_, rfl, hmode, rfl, rfl⟩

end

/-! ### Where a budget beats what disables it -/

theorem not_overridden_thinking {i : Intent} {m : Modifier} (hread : m.Readable)
    (hkey : m.key = "thinking") : ¬ (billModifier (i, false) m).1.Overridden := by
  obtain ⟨parsed, hparsed⟩ := hread.1 hkey
  rw [billModifier_thinking hkey hparsed (Or.inl rfl)]
  rcases parseThinkingModifier_spec hparsed with ⟨hnone, -⟩ | ⟨hmode, heffort, -⟩
  · exact not_overridden_of_none hnone
  · exact not_overridden_of_on (by rw [heffort]; decide) hmode

theorem not_overridden_effort {i : Intent} {hasThinking : Bool} {m : Modifier}
    (hread : m.Readable) (hkey : m.key = "effort") :
    ¬ (billModifier (i, hasThinking) m).1.Overridden := by
  obtain ⟨e, he, hset⟩ := hread.2 hkey
  by_cases hnone : e = .none
  · rw [hnone] at he
    rw [billModifier_effort_none hkey he]
    exact not_overridden_of_none rfl
  · obtain ⟨j, hj, hmode, heq, -⟩ :=
      billModifier_effort i hasThinking hkey he hset hnone
    rw [hj]
    exact not_overridden_of_on (by rw [heq]; exact hnone) hmode

theorem billModifier_effort_first {m : Modifier} (hkey : m.key = "effort")
    (h : parseEffort m.value = .ok e) (hset : e ≠ .unset) :
    ∃ i, billModifier (Intent.zero, false) m = (i, true) ∧ i.effort = e ∧ i.budgetTokens = none := by
  by_cases hnone : e = .none
  · subst hnone
    exact ⟨_, billModifier_effort_none hkey h, rfl, rfl⟩
  · obtain ⟨i, hi, -, heffort, hbudget⟩ :=
      billModifier_effort Intent.zero false hkey h hset hnone
    exact ⟨i, hi, heffort, hbudget⟩

theorem overridden_effort_thinking {e t : Modifier} (he : e.Readable) (ht : t.Readable)
    (hekey : e.key = "effort") (htkey : t.key = "thinking") :
    (billModifier (billModifier (Intent.zero, false) e) t).1.Overridden ↔
      parseEffort e.value = .ok .none ∧ ∃ i, parseThinkingModifier t.value = some i ∧
        i.budgetTokens ≠ none := by
  obtain ⟨effort, heffort, hset⟩ := he.2 hekey
  obtain ⟨parsed, hparsed⟩ := ht.1 htkey
  obtain ⟨first, hfirst, hsame, hbudget⟩ := billModifier_effort_first hekey heffort hset
  rw [hfirst, heffort, hparsed]
  rcases parseThinkingModifier_spec hparsed with ⟨hnone, hmode⟩ | ⟨hmode, -, hzero⟩
  · rw [billModifier_thinking htkey hparsed (Or.inr hmode)]
    refine iff_of_false (not_overridden_of_none hnone) ?_
    rintro ⟨-, i, hi, hsome⟩
    rw [← Option.some.inj hi] at hsome
    exact hsome hnone
  · obtain ⟨last, hlast, hon, hkept, hgot⟩ := billModifier_thinking_after htkey hparsed hmode
    rw [hlast]
    rw [hbudget] at hgot
    constructor
    · rintro ⟨hoff, budget, hsome, -⟩
      have hnone : last.effort = .none := hoff.resolve_right hon
      rw [hkept, hsame] at hnone
      refine ⟨by rw [hnone], parsed, rfl, ?_⟩
      intro hno
      rw [if_pos hno] at hgot
      rw [hgot] at hsome
      cases hsome
    · rintro ⟨hnone, i, hi, hsome⟩
      rw [← Option.some.inj hi] at hsome
      obtain ⟨budget, hb⟩ := Option.ne_none_iff_exists'.mp hsome
      rw [if_neg hsome] at hgot
      refine ⟨Or.inl ?_, budget, hgot.trans hb, ?_⟩
      · rw [hkept, hsame]
        exact Except.ok.inj hnone
      · rintro rfl
        exact hzero hb

theorem billing_overridden_iff (hread : ∀ m ∈ rightmost modifiers, m.Readable) :
    ((controls modifiers).foldl billModifier (Intent.zero, false)).1.Overridden ↔
      BudgetOverNone modifiers := by
  have hmem : ∀ m ∈ controls modifiers, m.Readable := fun m hm => hread m (List.mem_filter.mp hm).1
  unfold BudgetOverNone
  rcases controls_cases modifiers with h | ⟨t, h, ht⟩ | ⟨e, h, he⟩ | ⟨t, e, h, ht, he⟩ |
    ⟨e, t, h, he, ht⟩
  · rw [h, List.foldl_nil]
    exact iff_of_false (not_overridden_of_none rfl) (by simp)
  · rw [h] at hmem ⊢
    rw [List.foldl_cons, List.foldl_nil]
    exact iff_of_false (not_overridden_thinking (hmem t (by simp)) ht) (by simp)
  · rw [h] at hmem ⊢
    rw [List.foldl_cons, List.foldl_nil]
    exact iff_of_false (not_overridden_effort (hmem e (by simp)) he) (by simp)
  · rw [h] at hmem ⊢
    rw [List.foldl_cons, List.foldl_cons, List.foldl_nil]
    refine iff_of_false (not_overridden_effort (hmem e (by simp)) he) ?_
    rintro ⟨e', t', hforms, he', -⟩
    rw [← (List.cons.inj hforms).1, ht] at he'
    exact absurd he' (by decide)
  · rw [h] at hmem ⊢
    rw [List.foldl_cons, List.foldl_cons, List.foldl_nil,
      overridden_effort_thinking (hmem e (by simp)) (hmem t (by simp)) he ht]
    constructor
    · exact fun hover => ⟨e, t, rfl, he, ht, hover⟩
    · rintro ⟨e', t', hforms, -, -, hover⟩
      obtain ⟨rfl, htail⟩ := List.cons.inj hforms
      obtain ⟨rfl, -⟩ := List.cons.inj htail
      exact hover

theorem billModifier_asks (i : Intent) (hasThinking : Bool) {m : Modifier} (hread : m.Readable)
    (hkey : m.key = "thinking" ∨ m.key = "effort") : (billModifier (i, hasThinking) m).2 = true := by
  unfold billModifier
  dsimp only
  rcases hkey with hkey | hkey
  · obtain ⟨parsed, hparsed⟩ := hread.1 hkey
    rw [hkey, hparsed]
    rfl
  · obtain ⟨e, he, hset⟩ := hread.2 hkey
    rw [hkey, he]
    cases e with
    | unset => exact absurd rfl hset
    | _ => rfl

theorem billing_idle (hread : ∀ m ∈ rightmost modifiers, m.Readable)
    (h : ((controls modifiers).foldl billModifier (Intent.zero, false)).2 = false) :
    controls modifiers = [] := by
  rcases List.eq_nil_or_concat' (controls modifiers) with hnil | ⟨before, last, hlast⟩
  · exact hnil
  · have hmem : last ∈ controls modifiers := by
      rw [hlast]
      simp
    rw [hlast, List.foldl_append] at h
    have hasks := billModifier_asks (before.foldl billModifier (Intent.zero, false)).1
      (before.foldl billModifier (Intent.zero, false)).2
      (hread last (List.mem_filter.mp hmem).1) (controls_key hmem)
    rw [List.foldl_cons, List.foldl_nil, hasks] at h
    cases h

/-! ### The suffixes -/

theorem append_ne_empty_of_right (ht : t ≠ "") : s ++ t ≠ "" := by
  intro h
  have hlength := congrArg String.length h
  rw [String.length_append, String.length_empty] at hlength
  exact ht (String.length_eq_zero_iff.mp (by omega))

theorem legacyModelPattern_empty (family : String) : legacyModelPattern family "" = false := by
  unfold legacyModelPattern cutPrefix
  by_cases hprefix : family.toList.isPrefixOf "".toList = true
  · rw [if_pos hprefix]
    simp [isFamilyTail]
  · rw [if_neg hprefix]

theorem parseProviderModelSuffix_ok {requiredPrefix : String} {allow : Bool} {i : Intent}
    (h : parseProviderModelSuffix modelName requiredPrefix allow = .ok (some (base, i))) :
    ¬ i.Overridden ∧ i.hasStrength = true := by
  unfold parseProviderModelSuffix at h
  split at h
  · cases h
  · split at h
    · dsimp only at h
      split at h
      · cases h
      · split at h
        · cases h
        · cases h
          exact ⟨not_overridden_of_on (fun h => nomatch h) (fun h => nomatch h), rfl⟩
    · split at h
      · cases h
        exact ⟨not_overridden_of_none rfl, rfl⟩
      · split at h
        · cases h
          exact ⟨not_overridden_of_none rfl, rfl⟩
        · split at h
          · cases h
          · split at h
            · cases h
            · split at h
              · cases h
              · cases h
                split <;> exact ⟨not_overridden_of_none rfl, rfl⟩

theorem parseFamilyModelSuffix_ok {family : String} {allow : Bool} {i : Intent}
    (h : parseFamilyModelSuffix family modelName allow = .ok (some (base, i))) :
    base ≠ "" ∧ ¬ i.Overridden ∧ i.hasStrength = true := by
  unfold parseFamilyModelSuffix at h
  dsimp only at h
  split at h
  · cases h
  · split at h
    · cases h
    · cases h
    · rename_i _ found intent hfound
      split at h
      · rename_i hpattern
        cases h
        refine ⟨append_ne_empty_of_right ?_, parseProviderModelSuffix_ok hfound⟩
        rintro rfl
        rw [legacyModelPattern_empty] at hpattern
        cases hpattern
      · cases h

theorem parseOpenAI_base {settings : Settings}
    (h : (parseOpenAIReasoningEffortFromModelSuffix settings modelName).1 ≠ "") :
    (parseOpenAIReasoningEffortFromModelSuffix settings modelName).2 ≠ "" := by
  unfold parseOpenAIReasoningEffortFromModelSuffix at h ⊢
  by_cases hreal : shouldPreserveEffortTail settings modelName = true
  · rw [if_pos hreal] at h
    exact absurd rfl h
  · rw [if_neg hreal] at h ⊢
    cases hfound : trimEffortSuffixWithSuffixes modelName effortSuffixes with
    | none =>
      rw [hfound] at h
      exact absurd rfl h
    | some found =>
      rw [hfound] at h
      dsimp only at h ⊢
      by_cases hpattern : legacyOpenAIModelPattern (splitModelNamespace found.1).2 = true
      · rw [if_pos hpattern]
        intro hempty
        dsimp only at hempty
        rw [hempty] at hpattern
        exact absurd hpattern (by decide +kernel)
      · rw [if_neg hpattern] at h
        exact absurd rfl h

theorem parseLegacyModelSuffix_ok {settings : Settings} {claude gemini : Bool} {i : Intent}
    (h : parseLegacyModelSuffix settings modelName claude gemini = .ok (some (base, i))) :
    base ≠ "" ∧ ¬ i.Overridden ∧ i.hasStrength = true := by
  unfold parseLegacyModelSuffix at h
  dsimp only at h
  split at h
  · cases h
  · cases h
  · rename_i _ found intent hfound
    cases h
    suffices hsuffix : found ≠ "" ∧ ¬ i.Overridden ∧ i.hasStrength = true from
      ⟨append_ne_empty_of_right hsuffix.1, hsuffix.2⟩
    split at hfound
    · exact parseFamilyModelSuffix_ok hfound
    · split at hfound
      · exact parseFamilyModelSuffix_ok hfound
      · split at hfound
        · cases hfound
        · rename_i heffort
          split at hfound
          · cases hfound
          · obtain ⟨hbase, hintent⟩ := Prod.mk.inj (Option.some.inj (Except.ok.inj hfound))
            rw [← hbase, ← hintent]
            refine ⟨parseOpenAI_base heffort, not_overridden_of_none rfl, ?_⟩
            simp only [Intent.hasStrength]
            split <;> rfl

theorem parseLegacyModelSuffix_empty (settings : Settings) (claude gemini : Bool) :
    parseLegacyModelSuffix settings "" claude gemini = .ok none := by
  rfl

/-! ### The request and its bill -/

theorem parseModelModifiers_base {name : String} (h : (parseModelModifiers name).modifiers ≠ []) :
    (parseModelModifiers name).base ≠ "" := by
  unfold parseModelModifiers at h ⊢
  dsimp only at h ⊢
  split at h
  · exact absurd rfl h
  · rename_i hsome
    rw [if_neg hsome]
    exact (not_or.mp hsome).2

/-- A name whose effort is `none` where a budget follows, and which is not exempt. -/
def NoneUnderBudget {F : Type} (lib : Library F) (settings : Settings) (name : String) : Prop :=
  shouldPreserveThinkingSuffix lib settings name = false ∧
    BudgetOverNone (parseModelModifiers name).modifiers

section

variable {F : Type} {lib : Library F} {settings : Settings} {name : String} {p : Parsed F}

theorem parseHostModelSuffix_eq (base : String) :
    parseHostModelSuffix settings base (convOptions lib settings) =
      parseLegacyModelSuffix settings base settings.claudeThinkingAdapterEnabled
        settings.geminiThinkingAdapterEnabled := by
  unfold parseHostModelSuffix
  by_cases hempty : base = ""
  · rw [if_pos hempty, hempty, parseLegacyModelSuffix_empty]
  · rw [if_neg hempty]
    rfl

/-- What the modifiers of a name say, to the request and to the bill. -/
structure Explicit (name : String) (parsed : Parsed F) : Prop where
  bill : billingIntentFromModifiers (parseModelModifiers name) = (parsed.intent, parsed.hasThinking)
  base : parsed.base = (parseModelModifiers name).base
  idle : parsed.hasThinking = false →
    parsed.intent = Intent.zero ∧ ¬ BudgetOverNone (parseModelModifiers name).modifiers
  nonempty : parsed.hasThinking = true → parsed.base ≠ ""
  overridden : parsed.intent.Overridden ↔ BudgetOverNone (parseModelModifiers name).modifiers

theorem explicit_of_parse (h : parseExplicitModelModifiers lib name = .ok p) : Explicit name p := by
  obtain ⟨hbill, hbase, hread⟩ := billing_of_explicit h
  have hfold := billingIntentFromModifiers_eq (parseModelModifiers name)
  rw [hbill] at hfold
  constructor
  · exact hbill
  · exact hbase
  · intro hthinking
    have hidle : controls (parseModelModifiers name).modifiers = [] := by
      refine billing_idle hread ?_
      rw [← hfold]
      exact hthinking
    rw [hidle] at hfold
    refine ⟨congrArg Prod.fst hfold, ?_⟩
    rintro ⟨e, t, hcontrols, -⟩
    rw [hidle] at hcontrols
    cases hcontrols
  · intro hthinking
    rw [hbase]
    refine parseModelModifiers_base ?_
    intro hnil
    rw [hnil] at hfold
    have hfalse : p.hasThinking = false := congrArg Prod.snd hfold
    rw [hfalse] at hthinking
    cases hthinking
  · rw [← billing_overridden_iff hread, ← hfold]

/-- What is billed of a name that is not exempt, and accepted. -/
structure Bills (lib : Library F) (settings : Settings) (name : String) (p : Parsed F) : Prop where
  billed : billedIntent lib settings (parseModelModifiers name) = (p.base, p.intent, p.hasThinking)
  idle : p.hasThinking = false → p.intent = Intent.zero
  nonempty : p.hasThinking = true → p.base ≠ ""
  overridden : p.intent.Overridden ↔ BudgetOverNone (parseModelModifiers name).modifiers

theorem bills_of_parse (h : parseRequestModelName lib settings name (convOptions lib settings) = .ok p)
    (hname : ¬ shouldPreserveThinkingSuffix lib settings name = true) :
    Bills lib settings name p := by
  have hexempt : ¬ (convOptions lib settings).shouldPreserveThinkingSuffix name = true := hname
  unfold parseRequestModelName at h
  rw [if_neg hexempt] at h
  cases hexplicit : parseExplicitModelModifiers lib name with
  | error e =>
    rw [hexplicit] at h
    cases h
  | ok parsed =>
    rw [hexplicit] at h
    have hsaid := explicit_of_parse hexplicit
    have hidle : parsed.hasThinking = false → parsed.intent = Intent.zero := fun hfalse =>
      (hsaid.idle hfalse).1
    suffices hbilled : billedIntent lib settings (parseModelModifiers name) =
        (p.base, p.intent, p.hasThinking) ∧
          (p.intent = parsed.intent ∧ p.hasThinking = parsed.hasThinking ∧
              (p.hasThinking = true → p.base ≠ "") ∨
            parsed.hasThinking = false ∧ p.hasThinking = true ∧ p.base ≠ "" ∧
              ¬ p.intent.Overridden) by
      obtain ⟨hbilled, ⟨hintent, hthinking, hbase⟩ | ⟨hnot, hthinking, hbase, hover⟩⟩ := hbilled
      · rw [← hintent, ← hthinking] at hidle
        exact ⟨hbilled, hidle, hbase, by rw [hintent]; exact hsaid.overridden⟩
      · have hasked : p.hasThinking = false → p.intent = Intent.zero := by
          intro hfalse
          rw [hthinking] at hfalse
          cases hfalse
        exact ⟨hbilled, hasked, fun _ => hbase, iff_of_false hover (hsaid.idle hnot).2⟩
    unfold billedIntent
    dsimp only at h ⊢
    rw [hsaid.bill, ← hsaid.base]
    by_cases hpreserve : shouldPreserveThinkingSuffix lib settings parsed.base = true
    · have hexempt : (convOptions lib settings).shouldPreserveThinkingSuffix parsed.base = true :=
        hpreserve
      rw [if_pos hexempt] at h
      rw [if_pos hpreserve, ← Except.ok.inj h]
      exact ⟨rfl, Or.inl ⟨rfl, rfl, hsaid.nonempty⟩⟩
    · have hexempt : ¬ (convOptions lib settings).shouldPreserveThinkingSuffix parsed.base = true :=
        hpreserve
      rw [if_neg hexempt, parseHostModelSuffix_eq] at h
      rw [if_neg hpreserve]
      cases hlegacy : parseLegacyModelSuffix settings parsed.base
          settings.claudeThinkingAdapterEnabled settings.geminiThinkingAdapterEnabled with
      | error e =>
        rw [hlegacy] at h
        cases h
      | ok found =>
        rw [hlegacy] at h
        cases found with
        | none =>
          cases h
          exact ⟨rfl, Or.inl ⟨rfl, rfl, hsaid.nonempty⟩⟩
        | some found =>
          obtain ⟨hbase, hlegal, -⟩ := parseLegacyModelSuffix_ok hlegacy
          dsimp only at h ⊢
          by_cases hthinking : parsed.hasThinking = true
          · rw [if_pos hthinking] at h
            rw [if_pos hthinking, ← Except.ok.inj h]
            exact ⟨rfl, Or.inl ⟨rfl, rfl, fun _ => hbase⟩⟩
          · rw [if_neg hthinking] at h
            rw [if_neg hthinking, ← Except.ok.inj h]
            exact ⟨rfl, Or.inr ⟨Bool.eq_false_iff.mpr hthinking, rfl, hbase, hlegal⟩⟩

/-- A name that is accepted is billed as it is sent, unless a budget follows its effort `none`: it is
billed without thinking then, and the budget is sent. -/
theorem canonicalBillingModelNames_eq_iff
    (h : parseRequestModelName lib settings name (convOptions lib settings) = .ok p) :
    ∃ sent diagnostics, normalizeIntent p.intent = .ok (sent, diagnostics) ∧
      (canonicalBillingModelNames lib settings name = statedNames p.base sent ↔
        ¬ NoneUnderBudget lib settings name) := by
  obtain ⟨diagnostics, hsent⟩ := normalizeIntent_eq p.intent
  refine ⟨p.intent.sent, diagnostics, hsent, ?_⟩
  cases hname : shouldPreserveThinkingSuffix lib settings name with
  | true =>
    unfold parseRequestModelName at h
    rw [if_pos (show (convOptions lib settings).shouldPreserveThinkingSuffix name = true from hname)]
      at h
    have hnames : canonicalBillingModelNames lib settings name = [] := if_pos hname
    rw [hnames, ← Except.ok.inj h]
    refine iff_of_true rfl ?_
    rintro ⟨hnot, -⟩
    rw [hname] at hnot
    cases hnot
  | false =>
    have hexempt : ¬ shouldPreserveThinkingSuffix lib settings name = true := by
      rw [hname]
      decide
    have hbills := bills_of_parse h hexempt
    have hcondition : NoneUnderBudget lib settings name ↔ p.intent.Overridden := by
      rw [hbills.overridden]
      exact ⟨fun hnone => hnone.2, fun hnone => ⟨hname, hnone⟩⟩
    unfold canonicalBillingModelNames
    rw [hcondition, if_neg hexempt, hbills.billed]
    dsimp only
    by_cases hthinking : p.hasThinking = true
    · rw [if_pos hthinking]
      exact canonicalNames_eq_iff (hbills.nonempty hthinking) p.intent
    · rw [if_neg hthinking, hbills.idle (Bool.eq_false_iff.mpr hthinking)]
      exact iff_of_true rfl (not_overridden_of_none rfl)

end

def Library.small : Library Unit :=
  { compile := fun _ => none
    parseFloat := fun s => if s = "0.2" then some () else none }

def Settings.small : Settings :=
  { thinkingModelBlacklist := ["moonshotai/kimi-k2-thinking", "kimi-k2-thinking"]
    effortTailModelIDs := ["gpt-5.1-codex-max", "qwen-image-edit-max", "qwen-max",
      "stable-diffusion-3-medium", "yi-medium"]
    claudeThinkingAdapterEnabled := true
    geminiThinkingAdapterEnabled := false }

theorem canonicalBillingModelNames_eq_iff_qwen :
    ∃ (p : Parsed Unit) (sent : Intent) (diagnostics : List Diagnostic),
      normalizeIntent p.intent = .ok (sent, diagnostics) ∧
        (canonicalBillingModelNames Library.small Settings.small
              "qwen3-max@effort:high@temperature:0.2@thinking:1024" = statedNames p.base sent ↔
          ¬ NoneUnderBudget Library.small Settings.small
              "qwen3-max@effort:high@temperature:0.2@thinking:1024") := by
  have hparse : (parseRequestModelName Library.small Settings.small
      "qwen3-max@effort:high@temperature:0.2@thinking:1024"
      (convOptions Library.small Settings.small)).toOption.isSome = true := by
    decide +kernel
  exact ⟨_, canonicalBillingModelNames_eq_iff (eq_ok_get hparse)⟩

/-- Billed without thinking, and sent with a budget of 1024 tokens. -/
theorem billed_off_sent_on :
    ∃ (p : Parsed Unit) (sent : Intent) (diagnostics : List Diagnostic),
      parseRequestModelName Library.small Settings.small "qwen3-max@effort:none@thinking:1024"
          (convOptions Library.small Settings.small) = .ok p ∧
        normalizeIntent p.intent = .ok (sent, diagnostics) ∧
        p.base = "qwen3-max" ∧ sent.mode = .enabled ∧ sent.budgetTokens = some 1024 ∧
        canonicalBillingModelNames Library.small Settings.small
          "qwen3-max@effort:none@thinking:1024" = ["qwen3-max@thinking:off"] ∧
        statedNames p.base sent = ["qwen3-max@thinking:on"] := by
  have hparse : (parseRequestModelName Library.small Settings.small
      "qwen3-max@effort:none@thinking:1024"
      (convOptions Library.small Settings.small)).toOption.isSome = true := by
    decide +kernel
  have hsent : (parseRequestModelName Library.small Settings.small
      "qwen3-max@effort:none@thinking:1024"
      (convOptions Library.small Settings.small)).toOption.map
        (fun p => (p.base, p.intent.sent.mode, p.intent.sent.budgetTokens,
          statedNames p.base p.intent.sent)) =
      some ("qwen3-max", .enabled, some 1024, ["qwen3-max@thinking:on"]) := by
    decide +kernel
  obtain ⟨p, hp, hfacts⟩ := Option.map_eq_some_iff.mp hsent
  obtain ⟨diagnostics, hnormal⟩ := normalizeIntent_eq p.intent
  simp only [Prod.mk.injEq] at hfacts
  obtain ⟨hbase, hmode, hbudget, hnames⟩ := hfacts
  refine ⟨p, p.intent.sent, diagnostics, ?_, hnormal, hbase, hmode, hbudget, ?_, hnames⟩
  · rw [eq_ok_get hparse]
    exact congrArg Except.ok (Option.get_of_eq_some hparse hp)
  · decide +kernel

end JulongApi.ModelModifier
