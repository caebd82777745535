/-
What is billed of a name does not depend on the order of its modifiers.

Of the modifiers of a name, what counts is the last thinking and the last effort, in lower case
(`counted`).  The loop over the two gives the same in both orders, unless a thinking that disables
meets an effort that enables: there the later one wins (`agreed`), and the names differ.
-/
import JulongApi.Lib.Lines
import JulongApi.Proofs.ModelModifier
import JulongApi.Proofs.Strings

namespace JulongApi

/-! ### Letter case -/

theorem toLowerChar_toLowerChar (c : Char) : toLowerChar (toLowerChar c) = toLowerChar c := by
  rcases toLowerChar_cases c with ⟨-, h⟩ | ⟨-, h⟩ | ⟨hlow, hhigh, h⟩ | h
  · rw [h]
    decide
  · rw [h]
    decide
  · rcases toLowerChar_cases (toLowerChar c) with ⟨h', -⟩ | ⟨h', -⟩ | ⟨-, h', -⟩ | h'
    · omega
    · omega
    · omega
    · exact h'
  · rw [h, h]

theorem isSpace_toLowerChar (c : Char) : isSpace (toLowerChar c) = isSpace c := by
  rcases toLowerChar_cases c with ⟨hc, h⟩ | ⟨hc, h⟩ | ⟨hlow, hhigh, h⟩ | h
  · rw [h, isSpace, isSpace, hc]
    decide
  · rw [h, isSpace, isSpace, hc]
    decide
  · have hletter : ∀ d : Char, 65 ≤ d.toNat → d.toNat ≤ 122 → isSpace d = false := by
      intro d h₁ h₂
      simp only [isSpace, List.mem_cons, List.not_mem_nil, or_false, Bool.or_eq_false_iff,
        Bool.and_eq_false_imp, decide_eq_false_iff_not, decide_eq_true_eq]
      omega
    rw [hletter c hlow (by omega), hletter _ (by omega) (by omega)]
  · rw [h]

theorem toLower_toLower (s : String) : toLower (toLower s) = toLower s := by
  simp [toLower, toLowerChar_toLowerChar, Function.comp_def]

theorem trimSpace_toLower (s : String) : trimSpace (toLower s) = toLower (trimSpace s) := by
  have hspace : isSpace ∘ toLowerChar = isSpace := funext isSpace_toLowerChar
  simp only [trimSpace, toLower, String.toList_ofList, List.dropWhile_map, ← List.map_reverse,
    hspace]
namespace ModelModifier

/-! ### Names -/

def chained (base : String) (chain : List String) : String := "@".intercalate (base :: chain)

/-- What can be cut off the end of a name. -/
def IsModifier (segment : String) : Prop :=
  '@' ∉ segment.toList ∧ (parseModelModifierSegment segment).isSome

def Unmodified (base : String) : Prop :=
  base ≠ "" ∧ trailingModifiers (split base '@').tail.reverse [] = []

theorem split_ne_nil (text : String) (sep : Char) : split text sep ≠ [] := by
  simp [split, List.splitOn_ne_nil]

theorem chained_eq (base : String) (chain : List String) :
    chained base chain = "@".intercalate (split base '@' ++ chain) := by
  have hbase : "@".intercalate (split base '@') = base := intercalate_split (by simp) base
  cases chain with
  | nil => rw [List.append_nil, hbase, chained, String.intercalate_singleton]
  | cons segment chain =>
    rw [String.intercalate_append_of_ne_nil (split_ne_nil base '@') (by simp), hbase, chained,
      String.intercalate_cons_cons]

variable {chain : List String} {i : Intent}

theorem split_chained (base : String) (h : ∀ segment ∈ chain, '@' ∉ segment.toList) :
    split (chained base chain) '@' = split base '@' ++ chain := by
  have hpieces : ∀ piece ∈ base.toList.splitOn '@' ++ chain.map String.toList, '@' ∉ piece := by
    intro piece hpiece
    rcases List.mem_append.mp hpiece with hpiece | hpiece
    · exact Lines.not_mem_of_mem_splitOn hpiece
    · obtain ⟨segment, hsegment, rfl⟩ := List.mem_map.mp hpiece
      exact h segment hsegment
  have htext : (chained base chain).toList
      = ['@'].intercalate (base.toList.splitOn '@' ++ chain.map String.toList) := by
    rw [chained_eq, String.toList_intercalate, split, List.map_append, List.map_map]
    congr 2
    exact (List.map_congr_left fun piece _ => String.toList_ofList).trans (List.map_id' _)
  rw [split, htext, List.splitOn_intercalate '@' hpieces (by simp [List.splitOn_ne_nil]),
    List.map_append, List.map_map]
  refine congrArg₂ _ rfl ?_
  exact (List.map_congr_left fun segment _ => String.ofList_toList).trans (List.map_id' _)

theorem trailingModifiers_eq (before : List String) (modifiers : List Modifier) :
    trailingModifiers before modifiers = trailingModifiers before [] ++ modifiers := by
  induction before generalizing modifiers with
  | nil => rfl
  | cons segment before ih =>
    unfold trailingModifiers
    cases parseModelModifierSegment segment with
    | none => rfl
    | some modifier =>
      dsimp only
      rw [ih (modifier :: modifiers), ih [modifier], List.append_assoc, List.singleton_append]

theorem trailingModifiers_append (h : ∀ segment ∈ chain, (parseModelModifierSegment segment).isSome)
    (before : List String) :
    trailingModifiers (chain.reverse ++ before) []
      = trailingModifiers before [] ++ chain.filterMap parseModelModifierSegment := by
  induction chain generalizing before with
  | nil => simp
  | cons segment chain ih =>
    obtain ⟨modifier, hmodifier⟩ := Option.isSome_iff_exists.mp (h segment (by simp))
    rw [List.reverse_cons, List.append_assoc, List.singleton_append,
      ih fun segment hsegment => h segment (by simp [hsegment]), trailingModifiers]
    simp only [hmodifier]
    rw [trailingModifiers_eq, List.filterMap_cons_some hmodifier]
    simp

theorem parseModelModifiers_chained {base : String} (hbase : Unmodified base)
    (h : ∀ segment ∈ chain, IsModifier segment) :
    (parseModelModifiers (chained base chain)).base = base ∧
      (parseModelModifiers (chained base chain)).modifiers
        = chain.filterMap parseModelModifierSegment := by
  have hparse : ∀ segment ∈ chain, (parseModelModifierSegment segment).isSome :=
    fun segment hsegment => (h segment hsegment).2
  have hmodifiers : trailingModifiers (split base '@' ++ chain).tail.reverse []
      = chain.filterMap parseModelModifierSegment := by
    rw [List.tail_append_of_ne_nil (split_ne_nil base '@'), List.reverse_append,
      trailingModifiers_append hparse, hbase.2, List.nil_append]
  have hlength : (chain.filterMap parseModelModifierSegment).length = chain.length :=
    List.filterMap_length_eq_length.mpr hparse
  have hcut : "@".intercalate ((split base '@' ++ chain).take
      ((split base '@' ++ chain).length - (chain.filterMap parseModelModifierSegment).length))
      = base := by
    rw [hlength, List.length_append, Nat.add_sub_cancel, List.take_left']
    · exact intercalate_split (by simp) base
    · rfl
  unfold parseModelModifiers
  rw [split_chained base fun segment hsegment => (h segment hsegment).1]
  dsimp only
  rw [hmodifiers, hcut]
  by_cases hnil : chain.filterMap parseModelModifierSegment = []
  · have hchain : chain = [] := by
      rw [hnil, List.length_nil] at hlength
      exact List.length_eq_zero_iff.mp hlength.symm
    simp [hchain, chained]
  · simp [hnil, hbase.1]

/-! ### What counts -/

def counted (key : String) (modifiers : List Modifier) : Option String :=
  (modifiers.filter (·.key == key)).getLast?.map fun modifier => toLower modifier.value

theorem rightmost_filter (key : String) (modifiers : List Modifier) :
    (rightmost modifiers).filter (·.key == key)
      = (modifiers.filter (·.key == key)).getLast?.toList := by
  induction modifiers with
  | nil => rfl
  | cons first rest ih =>
    rw [rightmost]
    cases hfirst : first.key == key with
    | true =>
      obtain rfl : first.key = key := by simpa using hfirst
      cases hrest : rest.filter (·.key == first.key) with
      | nil =>
        have hany : ¬ rest.any (·.key == first.key) = true := by
          simpa [List.filter_eq_nil_iff] using hrest
        rw [hrest] at ih
        rw [if_neg hany]
        simp [ih, hrest]
      | cons next later =>
        have hany : rest.any (·.key == first.key) = true := by
          have hnext : next ∈ rest.filter (·.key == first.key) := by simp [hrest]
          obtain ⟨hmem, hkey⟩ := List.mem_filter.mp hnext
          exact List.any_eq_true.mpr ⟨next, hmem, hkey⟩
        rw [if_pos hany, ih]
        simp [hrest]
    | false =>
      have hrest : (first :: rest).filter (·.key == key) = rest.filter (·.key == key) := by
        simp [hfirst]
      rw [hrest, ← ih]
      split
      · rfl
      · simp [hfirst]

variable {key value segment : String} {effort : Effort} {modifiers : List Modifier} {m : Modifier}

theorem counted_controls (hkey : key = "thinking" ∨ key = "effort") (modifiers : List Modifier) :
    counted key (controls modifiers) = counted key modifiers := by
  have hcontrol : (controls modifiers).filter (·.key == key)
      = (rightmost modifiers).filter (·.key == key) := by
    rw [controls, List.filter_filter]
    refine List.filter_congr fun modifier _ => ?_
    rcases hkey with rfl | rfl
    · cases h : modifier.key == "thinking" <;> simp
    · cases h : modifier.key == "effort" <;> simp
  rw [counted, counted, hcontrol, rightmost_filter]
  cases (modifiers.filter (·.key == key)).getLast? with
  | none => rfl
  | some modifier => rfl

theorem parseThinkingModifier_toLower (raw : String) :
    parseThinkingModifier (toLower raw) = parseThinkingModifier raw := by
  rw [parseThinkingModifier, trimSpace_toLower, toLower_toLower, parseThinkingModifier]

theorem parseEffort_eq_ok :
    parseEffort value = .ok effort ↔ toLower (trimSpace value) = effort.text := by
  unfold parseEffort
  constructor
  · intro h
    split at h <;> cases h <;> assumption
  · intro h
    rw [h]
    cases effort <;> rfl

def askedEffort (value : String) : Option Effort :=
  match parseEffort value with
  | .ok .unset => none
  | .ok effort => some effort
  | .error _ => none

theorem askedEffort_eq_some :
    askedEffort value = some effort ↔ parseEffort value = .ok effort ∧ effort ≠ .unset := by
  unfold askedEffort
  cases parseEffort value with
  | error e => simp
  | ok found => cases found <;> simp <;> rintro rfl <;> decide

theorem askedEffort_toLower (value : String) :
    askedEffort (toLower value) = askedEffort value := by
  refine Option.ext fun effort => ?_
  rw [askedEffort_eq_some, askedEffort_eq_some, parseEffort_eq_ok, parseEffort_eq_ok,
    trimSpace_toLower, toLower_toLower]

def askedThinking (modifiers : List Modifier) : Option Intent :=
  (counted "thinking" modifiers).bind parseThinkingModifier

def askedEfforts (modifiers : List Modifier) : Option Effort :=
  (counted "effort" modifiers).bind askedEffort

/-- A thinking that disables, and an effort that enables. -/
def Contradictory (modifiers : List Modifier) : Prop :=
  ∃ intent effort, askedThinking modifiers = some intent ∧ intent.mode = .disabled ∧
    askedEfforts modifiers = some effort ∧ effort ≠ .none

/-- Of the modifiers that say how a name reasons the last one is an effort. -/
def effortLast (modifiers : List Modifier) : Bool :=
  ((modifiers.filter fun m => m.key == "thinking" || m.key == "effort").getLast?.map (·.key))
    == some "effort"

theorem rightmost_filter_key (p : String → Bool) (modifiers : List Modifier) :
    (rightmost modifiers).filter (fun m => p m.key)
      = rightmost (modifiers.filter fun m => p m.key) := by
  induction modifiers with
  | nil => rfl
  | cons first rest ih =>
    rw [rightmost]
    cases hfirst : p first.key with
    | true =>
      have hany : (rest.filter fun m => p m.key).any (·.key == first.key)
          = rest.any (·.key == first.key) := by
        rw [List.any_filter]
        refine congrArg (List.any rest) (funext fun m => ?_)
        cases hkey : m.key == first.key with
        | false => rw [Bool.and_false]
        | true => rw [beq_iff_eq.mp hkey, hfirst, Bool.and_true]
      rw [List.filter_cons_of_pos (by simpa using hfirst), rightmost, hany]
      split
      · exact ih
      · rw [List.filter_cons_of_pos (by simpa using hfirst), ih]
    | false =>
      rw [List.filter_cons_of_neg (by simp [hfirst])]
      split
      · exact ih
      · rw [List.filter_cons_of_neg (by simp [hfirst]), ih]

theorem getLast?_rightmost (modifiers : List Modifier) :
    (rightmost modifiers).getLast? = modifiers.getLast? := by
  induction modifiers with
  | nil => rfl
  | cons first rest ih =>
    rw [rightmost]
    cases rest with
    | nil => rfl
    | cons second rest =>
      split
      · rw [ih, List.getLast?_cons_cons]
      · rw [List.getLast?_cons, ih, List.getLast?_cons_cons]
        simp [List.getLast?_cons]

theorem effortLast_controls (modifiers : List Modifier) :
    effortLast (controls modifiers) = effortLast modifiers := by
  have hcontrols : controls modifiers
      = rightmost (modifiers.filter fun m => m.key == "thinking" || m.key == "effort") :=
    rightmost_filter_key (fun key => key == "thinking" || key == "effort") modifiers
  have hkept : (controls modifiers).filter (fun m => m.key == "thinking" || m.key == "effort")
      = controls modifiers := by
    rw [controls, List.filter_filter]
    simp
  rw [effortLast, hkept, hcontrols, getLast?_rightmost, effortLast]

/-! ### The loop -/

/-- What a bill says of the thinking and of the effort, where the loop has found any. -/
def said (read : Intent × Bool) : Option (Option (String × String)) :=
  if read.2 then some (normalizeBillingThinking read.1) else none

/-- What is billed of a thinking and an effort; `last` is whether the effort comes after. -/
def agreed (last : Bool) : Option Intent → Option Effort → Option (Option (String × String))
  | none, none => none
  | none, some effort =>
    some (some (if effort = .none then ("off", "") else ("on", toLower effort.text)))
  | some intent, none => some (some (if intent.mode = .disabled then ("off", "") else ("on", "")))
  | some intent, some effort =>
    some (some (if effort = .none ∨ (intent.mode = .disabled ∧ last = false) then ("off", "")
      else ("on", toLower effort.text)))

theorem normalizeBillingThinking_on (hmode : i.mode ≠ .disabled) (hbudget : i.budgetTokens ≠ some 0)
    (hset : i.effort ≠ .unset) :
    normalizeBillingThinking i
      = some (if i.effort = .none then ("off", "") else ("on", toLower i.effort.text)) := by
  unfold normalizeBillingThinking
  by_cases hnone : i.effort = .none
  · rw [if_pos (Or.inl hnone), if_pos hnone]
  · rw [if_neg (not_or.mpr ⟨hnone, hmode⟩), if_neg hbudget, if_pos hset, if_neg hnone]

theorem normalizeBillingThinking_thinking {raw : String} (h : parseThinkingModifier raw = some i) :
    normalizeBillingThinking i
      = some (if i.mode = .disabled then ("off", "") else ("on", "")) := by
  unfold parseThinkingModifier at h
  split at h
  · cases h
    rfl
  · cases h
    rfl
  · cases h
    rfl
  · split at h
    · cases h
    · rename_i budget _
      split at h
      · cases h
      · split at h
        · cases h
          rfl
        · rename_i hzero
          cases h
          simp [normalizeBillingThinking, Intent.zero, hzero]

section

variable {read : Intent × Bool} {t e : Modifier} {last : Bool}

theorem billModifier_thinking_none (hkey : t.key = "thinking")
    (h : parseThinkingModifier t.value = none) : billModifier read t = read := by
  simp [billModifier, hkey, h]

theorem billModifier_effort_skip (hkey : e.key = "effort") (h : askedEffort e.value = none) :
    billModifier read e = read := by
  unfold askedEffort at h
  unfold billModifier
  simp only [hkey]
  cases heffort : parseEffort e.value with
  | error error => rfl
  | ok effort =>
    rw [heffort] at h
    cases effort <;> first | rfl | cases h

theorem said_thinking {i : Intent} (hkey : t.key = "thinking")
    (h : parseThinkingModifier t.value = some i) (hfirst : read.2 = false ∨ i.mode = .disabled) :
    billModifier read t = (i, true) ∧ said (billModifier read t) = agreed last (some i) none := by
  have hread : billModifier read t = (i, true) := billModifier_thinking hkey h hfirst
  refine ⟨hread, ?_⟩
  rw [hread, said, if_pos rfl, normalizeBillingThinking_thinking h]
  rfl

theorem said_effort {effort : Effort} (hkey : e.key = "effort")
    (h : askedEffort e.value = some effort) (hbudget : read.1.budgetTokens ≠ some 0) :
    said (billModifier read e) = agreed last none (some effort) := by
  obtain ⟨hparse, hset⟩ := askedEffort_eq_some.mp h
  by_cases hnone : effort = .none
  · subst hnone
    rw [@billModifier_effort_none read.1 read.2 e hkey hparse]
    rfl
  · obtain ⟨j, hj, hmode, heffort, hkept⟩ :=
      billModifier_effort read.1 read.2 hkey hparse hset hnone
    rw [hj, said, if_pos rfl, normalizeBillingThinking_on hmode (by rw [hkept]; exact hbudget)
      (by rw [heffort]; exact hset), heffort]
    rfl

theorem said_thinking_effort (htkey : t.key = "thinking") (hekey : e.key = "effort") :
    said (billModifier (billModifier (Intent.zero, false) t) e)
      = agreed true (parseThinkingModifier t.value) (askedEffort e.value) := by
  cases ht : parseThinkingModifier t.value with
  | none =>
    rw [billModifier_thinking_none htkey ht]
    cases he : askedEffort e.value with
    | none =>
      rw [billModifier_effort_skip hekey he]
      rfl
    | some effort => exact said_effort hekey he (by simp [Intent.zero])
  | some i =>
    obtain ⟨hread, hsaid⟩ := @said_thinking (Intent.zero, false) t true i htkey ht (Or.inl rfl)
    cases he : askedEffort e.value with
    | none => rw [billModifier_effort_skip hekey he, hsaid]
    | some effort =>
      have hbudget : i.budgetTokens ≠ some 0 := by
        rcases parseThinkingModifier_spec ht with ⟨hnone, -⟩ | ⟨-, -, hzero⟩
        · simp [hnone]
        · exact hzero
      rw [hread, @said_effort (i, true) e true effort hekey he hbudget]
      simp [agreed]

theorem said_effort_thinking (htkey : t.key = "thinking") (hekey : e.key = "effort") :
    said (billModifier (billModifier (Intent.zero, false) e) t)
      = agreed false (parseThinkingModifier t.value) (askedEffort e.value) := by
  cases he : askedEffort e.value with
  | none =>
    rw [billModifier_effort_skip hekey he]
    cases ht : parseThinkingModifier t.value with
    | none =>
      rw [billModifier_thinking_none htkey ht]
      rfl
    | some i => exact (said_thinking htkey ht (Or.inl rfl)).2
  | some effort =>
    obtain ⟨hparse, hset⟩ := askedEffort_eq_some.mp he
    cases ht : parseThinkingModifier t.value with
    | none =>
      rw [billModifier_thinking_none htkey ht]
      exact said_effort hekey he (by simp [Intent.zero])
    | some i =>
      by_cases hmode : i.mode = .disabled
      · rw [(@said_thinking _ t false i htkey ht (Or.inr hmode)).2]
        simp [agreed, hmode]
      · obtain ⟨first, hfirst, heffort, hbudget⟩ := billModifier_effort_first hekey hparse hset
        obtain ⟨last, hlast, hon, hkept, hgot⟩ :=
          billModifier_thinking_after (i := first) htkey ht hmode
        have hzero : last.budgetTokens ≠ some 0 := by
          rw [hgot, hbudget]
          rcases parseThinkingModifier_spec ht with ⟨-, hoff⟩ | ⟨-, -, hzero⟩
          · exact absurd hoff hmode
          · split
            · simp
            · exact hzero
        rw [hfirst, hlast, said, if_pos rfl, normalizeBillingThinking_on hon hzero
          (by rw [hkept, heffort]; exact hset), hkept, heffort]
        simp [agreed, hmode]

end

theorem said_modifiers (modifiers : List Modifier) :
    said ((controls modifiers).foldl billModifier (Intent.zero, false))
      = agreed (effortLast modifiers) (askedThinking modifiers) (askedEfforts modifiers) := by
  rw [askedThinking, askedEfforts, ← counted_controls (Or.inl rfl),
    ← counted_controls (Or.inr rfl), ← effortLast_controls]
  rcases controls_cases modifiers with h | ⟨t, h, ht⟩ | ⟨e, h, he⟩ | ⟨t, e, h, ht, he⟩ |
    ⟨e, t, h, he, ht⟩
  · rw [h]
    rfl
  · have hcounted : counted "thinking" [t] = some (toLower t.value) ∧
        counted "effort" [t] = none := by simp [counted, ht]
    rw [h, hcounted.1, hcounted.2, Option.bind_some, Option.bind_none,
      parseThinkingModifier_toLower, List.foldl_cons, List.foldl_nil]
    cases hparse : parseThinkingModifier t.value with
    | none => rw [billModifier_thinking_none ht hparse]; rfl
    | some i => exact (said_thinking ht hparse (Or.inl rfl)).2
  · have hcounted : counted "thinking" [e] = none ∧
        counted "effort" [e] = some (toLower e.value) := by simp [counted, he]
    rw [h, hcounted.1, hcounted.2, Option.bind_some, Option.bind_none, askedEffort_toLower,
      List.foldl_cons, List.foldl_nil]
    cases hasked : askedEffort e.value with
    | none => rw [billModifier_effort_skip he hasked]; rfl
    | some effort => exact said_effort he hasked (by simp [Intent.zero])
  · have hcounted : counted "thinking" [t, e] = some (toLower t.value) ∧
        counted "effort" [t, e] = some (toLower e.value) := by simp [counted, ht, he]
    have hlast : effortLast [t, e] = true := by simp [effortLast, ht, he]
    rw [h, hcounted.1, hcounted.2, Option.bind_some, Option.bind_some, hlast,
      parseThinkingModifier_toLower, askedEffort_toLower, List.foldl_cons, List.foldl_cons,
      List.foldl_nil]
    exact said_thinking_effort ht he
  · have hcounted : counted "thinking" [e, t] = some (toLower t.value) ∧
        counted "effort" [e, t] = some (toLower e.value) := by simp [counted, ht, he]
    have hlast : effortLast [e, t] = false := by simp [effortLast, ht, he]
    rw [h, hcounted.1, hcounted.2, Option.bind_some, Option.bind_some, hlast,
      parseThinkingModifier_toLower, askedEffort_toLower, List.foldl_cons, List.foldl_cons,
      List.foldl_nil]
    exact said_effort_thinking ht he

/-! ### Variants -/

/-- Two chains that differ in the order of modifiers with different keys, in the letter case, or by
modifiers that do not reason. -/
inductive Variant : List String → List String → Prop
  | refl (chain : List String) : Variant chain chain
  | symm {chain chain' : List String} : Variant chain chain' → Variant chain' chain
  | trans {chain chain' chain'' : List String} :
      Variant chain chain' → Variant chain' chain'' → Variant chain chain''
  | swap (before after : List String) {segment segment' : String} {m m' : Modifier} :
      parseModelModifierSegment segment = some m → parseModelModifierSegment segment' = some m' →
      m.key ≠ m'.key →
      Variant (before ++ segment :: segment' :: after) (before ++ segment' :: segment :: after)
  | letterCase (before after : List String) {segment segment' : String} {m m' : Modifier} :
      parseModelModifierSegment segment = some m → parseModelModifierSegment segment' = some m' →
      m.key = m'.key → toLower m.value = toLower m'.value →
      Variant (before ++ segment :: after) (before ++ segment' :: after)
  | sampling (before after : List String) {segment : String} {m : Modifier} :
      parseModelModifierSegment segment = some m → m.key = "temperature" ∨ m.key = "topp" →
      Variant (before ++ segment :: after) (before ++ after)

theorem Variant.counted {chain' : List String} (h : Variant chain chain')
    (hkey : key = "thinking" ∨ key = "effort") :
    counted key (chain.filterMap parseModelModifierSegment)
      = counted key (chain'.filterMap parseModelModifierSegment) := by
  induction h with
  | refl => rfl
  | symm _ ih => exact ih.symm
  | trans _ _ ih ih' => exact ih.trans ih'
  | swap before after hm hm' hne =>
    rename_i m m'
    simp only [ModelModifier.counted, List.filterMap_append, List.filterMap_cons, hm, hm',
      List.filter_append, List.filter_cons]
    by_cases h : m.key = key
    · have h' : m'.key ≠ key := fun h' => hne (h.trans h'.symm)
      simp [h, h']
    · simp [h]
  | letterCase before after hm hm' hsame hvalue =>
    rename_i m m'
    simp only [ModelModifier.counted, List.filterMap_append, List.filterMap_cons, hm, hm',
      List.filter_append, List.filter_cons, hsame]
    by_cases h : m'.key = key
    · simp only [h, beq_self_eq_true, if_true, List.getLast?_append, List.getLast?_cons]
      cases ((after.filterMap parseModelModifierSegment).filter (·.key == key)).getLast? with
      | none => simp [hvalue]
      | some last => simp
    · simp [h]
  | sampling before after hm hsampling =>
    rename_i m
    have hother : m.key ≠ key := by
      rcases hsampling with h | h <;> rcases hkey with rfl | rfl <;> simp [h]
    simp [ModelModifier.counted, List.filterMap_append, hm, hother]

/-! ### The bill -/

/-- The base that is billed and the intent of its suffix, where it has one that is read. -/
def legacySuffix {F : Type} (lib : Library F) (settings : Settings) (base : String) :
    Option (String × Intent) :=
  if shouldPreserveThinkingSuffix lib settings base then none
  else
    match parseLegacyModelSuffix settings base settings.claudeThinkingAdapterEnabled
        settings.geminiThinkingAdapterEnabled with
    | .ok found => found
    | .error _ => none

/-- Nothing can be read of a thinking or an effort, and the base has no suffix that says one. -/
def Unasked {F : Type} (lib : Library F) (settings : Settings) (base : String)
    (modifiers : List Modifier) : Prop :=
  askedThinking modifiers = none ∧ askedEfforts modifiers = none ∧
    legacySuffix lib settings base = none

theorem agreed_eq_none {last : Bool} {thinking : Option Intent} {effort : Option Effort} :
    agreed last thinking effort = none ↔ thinking = none ∧ effort = none := by
  cases thinking <;> cases effort <;> simp [agreed]

theorem agreed_last {last last' : Bool} (h : ¬Contradictory modifiers ∨ last = last') :
    agreed last (askedThinking modifiers) (askedEfforts modifiers)
      = agreed last' (askedThinking modifiers) (askedEfforts modifiers) := by
  rcases h with hagree | rfl
  · cases hthinking : askedThinking modifiers with
    | none => cases askedEfforts modifiers <;> rfl
    | some intent =>
      cases heffort : askedEfforts modifiers with
      | none => rfl
      | some effort =>
        by_cases hmode : intent.mode = .disabled
        · have hnone : effort = .none := by
            by_contra hset
            exact hagree ⟨intent, effort, hthinking, hmode, heffort, hset⟩
          simp [agreed, hnone]
        · simp [agreed, hmode]
  · rfl

/-- The names of a base for what is said of the thinking and of the effort. -/
def saidNames (base : String) : Option (String × String) → List String
  | none => []
  | some (thinking, effort) => billedNames base thinking effort

theorem canonicalNamesFromIntent_said {base : String} (hbase : base ≠ "") (i : Intent) :
    canonicalNamesFromIntent base i = saidNames base (normalizeBillingThinking i) := by
  cases h : normalizeBillingThinking i with
  | none => exact canonicalNamesFromIntent_none h
  | some said => exact canonicalNamesFromIntent_eq hbase h

theorem saidNames_ne_nil (base : String) (said : String × String) :
    saidNames base (some said) ≠ [] := by
  simp [saidNames, billedNames]

theorem normalizeBillingThinking_ne_none (h : i.hasStrength = true) :
    normalizeBillingThinking i ≠ none := by
  unfold normalizeBillingThinking
  split
  · simp
  split
  · simp
  split
  · simp
  next hoff _ heffort =>
  rw [if_pos]
  · simp
  · cases hmode : i.mode <;> simp_all [Intent.hasStrength]

section

variable {F : Type} {lib : Library F} {settings : Settings} {base : String}

/-- The names that are billed of a base, by what its modifiers say. -/
def boundNames (lib : Library F) (settings : Settings) (base : String)
    (result : Option (Option (String × String))) : List String :=
  match legacySuffix lib settings base with
  | some (legacyBase, intent) =>
    saidNames legacyBase (result.getD (normalizeBillingThinking intent))
  | none => saidNames base (result.getD none)

theorem legacySuffix_ok {legacyBase : String} {intent : Intent}
    (h : legacySuffix lib settings base = some (legacyBase, intent)) :
    legacyBase ≠ "" ∧ intent.hasStrength = true := by
  unfold legacySuffix at h
  split at h
  · cases h
  split at h
  next found hfound =>
    subst h
    obtain ⟨hbase, -, hstrength⟩ := parseLegacyModelSuffix_ok hfound
    exact ⟨hbase, hstrength⟩
  · cases h

theorem canonicalBillingModelNames_eq {name : String} (hbase : (parseModelModifiers name).base ≠ "") :
    canonicalBillingModelNames lib settings name
      = if shouldPreserveThinkingSuffix lib settings name then []
        else boundNames lib settings (parseModelModifiers name).base
          (said (billingIntentFromModifiers (parseModelModifiers name))) := by
  unfold canonicalBillingModelNames
  refine if_congr Iff.rfl rfl ?_
  unfold billedIntent boundNames
  generalize billingIntentFromModifiers (parseModelModifiers name) = read
  generalize (parseModelModifiers name).base = base at hbase ⊢
  obtain ⟨intent, found⟩ := read
  have hplain : legacySuffix lib settings base = none →
      (if found = true then canonicalNamesFromIntent base intent else [])
        = saidNames base ((said (intent, found)).getD none) := by
    intro _
    cases found with
    | false => rfl
    | true => exact canonicalNamesFromIntent_said hbase intent
  cases hsuffix : legacySuffix lib settings base with
  | none =>
    have hnone := hplain hsuffix
    unfold legacySuffix at hsuffix
    split at hsuffix
    next hkept =>
      rw [if_pos hkept]
      exact hnone
    next hkept =>
      rw [if_neg hkept]
      split at hsuffix
      next found' hfound' =>
        rw [hfound', hsuffix]
        exact hnone
      next error herror =>
        rw [herror]
        exact hnone
  | some legacy =>
    obtain ⟨legacyBase, legacyIntent⟩ := legacy
    obtain ⟨hlegacy, -⟩ := legacySuffix_ok hsuffix
    unfold legacySuffix at hsuffix
    split at hsuffix
    · cases hsuffix
    next hkept =>
    rw [if_neg hkept]
    split at hsuffix
    next found' hfound' =>
      rw [hfound', hsuffix]
      cases found with
      | false => exact canonicalNamesFromIntent_said hlegacy legacyIntent
      | true => exact canonicalNamesFromIntent_said hlegacy intent
    · cases hsuffix

theorem boundNames_eq_nil_iff {last : Bool} :
    boundNames lib settings base
        (agreed last (askedThinking modifiers) (askedEfforts modifiers)) = []
      ↔ Unasked lib settings base modifiers := by
  unfold boundNames Unasked
  rw [← and_assoc, ← @agreed_eq_none last]
  have hsome : ∀ said, agreed last (askedThinking modifiers) (askedEfforts modifiers) = some said →
      ∃ names, said = some names := by
    intro said h
    cases hthinking : askedThinking modifiers <;> cases heffort : askedEfforts modifiers <;>
      simp [agreed, hthinking, heffort] at h <;> exact ⟨_, h.symm⟩
  generalize agreed last (askedThinking modifiers) (askedEfforts modifiers) = result at hsome ⊢
  cases hsuffix : legacySuffix lib settings base with
  | none =>
    cases result with
    | none => simp [saidNames]
    | some said =>
      obtain ⟨names, rfl⟩ := hsome said rfl
      simpa using saidNames_ne_nil base names
  | some legacy =>
    obtain ⟨legacyBase, intent⟩ := legacy
    refine iff_of_false ?_ (by simp)
    cases result with
    | none =>
      obtain ⟨names, hnames⟩ := Option.ne_none_iff_exists'.mp
        (normalizeBillingThinking_ne_none (legacySuffix_ok hsuffix).2)
      simpa [hnames] using saidNames_ne_nil legacyBase names
    | some said =>
      obtain ⟨names, rfl⟩ := hsome said rfl
      exact saidNames_ne_nil legacyBase names

theorem boundNames_ne {modifiers : List Modifier} (h : Contradictory modifiers) :
    boundNames lib settings base (agreed true (askedThinking modifiers) (askedEfforts modifiers))
      ≠ boundNames lib settings base
        (agreed false (askedThinking modifiers) (askedEfforts modifiers)) := by
  obtain ⟨intent, effort, hthinking, hmode, heffort, hnone⟩ := h
  have hset : effort ≠ .unset := by
    obtain ⟨value, -, hasked⟩ := Option.bind_eq_some_iff.mp heffort
    exact (askedEffort_eq_some.mp hasked).2
  have hne : ∀ base, saidNames base (some ("on", toLower effort.text))
      ≠ saidNames base (some ("off", "")) := by
    intro base heq
    have hlength := congrArg List.length heq
    simp [saidNames, billedNames_effort base hset, billedNames_off] at hlength
  have hon : agreed true (some intent) (some effort) = some (some ("on", toLower effort.text)) := by
    simp [agreed, hnone]
  have hoff : agreed false (some intent) (some effort) = some (some ("off", "")) := by
    simp [agreed, hmode]
  rw [hthinking, heffort, hon, hoff]
  unfold boundNames
  cases legacySuffix lib settings base with
  | none => exact hne base
  | some legacy => exact hne legacy.1

/-- **Two variants of a name are billed alike exactly when both are kept or neither, or nothing is
asked; and when a thinking and an effort that contradict one another stand in one order.** -/
theorem canonicalBillingModelNames_variant_iff {chain chain' : List String}
    (hbase : Unmodified base) (hchain : ∀ segment ∈ chain, IsModifier segment)
    (hchain' : ∀ segment ∈ chain', IsModifier segment) (hvariant : Variant chain chain') :
    canonicalBillingModelNames lib settings (chained base chain)
        = canonicalBillingModelNames lib settings (chained base chain')
      ↔ (shouldPreserveThinkingSuffix lib settings (chained base chain)
            = shouldPreserveThinkingSuffix lib settings (chained base chain') ∨
          Unasked lib settings base (chain.filterMap parseModelModifierSegment)) ∧
        (shouldPreserveThinkingSuffix lib settings (chained base chain) = true ∨
          ¬Contradictory (chain.filterMap parseModelModifierSegment) ∨
          effortLast (chain.filterMap parseModelModifierSegment)
            = effortLast (chain'.filterMap parseModelModifierSegment)) := by
  obtain ⟨hparsed, hmodifiers⟩ := parseModelModifiers_chained hbase hchain
  obtain ⟨hparsed', hmodifiers'⟩ := parseModelModifiers_chained hbase hchain'
  rw [canonicalBillingModelNames_eq (hparsed.symm ▸ hbase.1),
    canonicalBillingModelNames_eq (hparsed'.symm ▸ hbase.1), hparsed, hparsed',
    billingIntentFromModifiers_eq, billingIntentFromModifiers_eq, hmodifiers, hmodifiers',
    said_modifiers, said_modifiers]
  have hthinking : askedThinking (chain'.filterMap parseModelModifierSegment)
      = askedThinking (chain.filterMap parseModelModifierSegment) := by
    rw [askedThinking, askedThinking, hvariant.counted (Or.inl rfl)]
  have heffort : askedEfforts (chain'.filterMap parseModelModifierSegment)
      = askedEfforts (chain.filterMap parseModelModifierSegment) := by
    rw [askedEfforts, askedEfforts, hvariant.counted (Or.inr rfl)]
  rw [hthinking, heffort]
  generalize effortLast (chain'.filterMap parseModelModifierSegment) = last'
  generalize hlast : effortLast (chain.filterMap parseModelModifierSegment) = last
  generalize chain.filterMap parseModelModifierSegment = modifiers
  have hunasked : Unasked lib settings base modifiers → ¬Contradictory modifiers := by
    rintro ⟨hnone, -⟩ ⟨intent, effort, hsome, -⟩
    rw [hnone] at hsome
    cases hsome
  cases shouldPreserveThinkingSuffix lib settings (chained base chain) with
  | true =>
    cases shouldPreserveThinkingSuffix lib settings (chained base chain') with
    | true => simp
    | false =>
      rw [if_pos rfl, if_neg Bool.false_ne_true, eq_comm, boundNames_eq_nil_iff]
      simp
  | false =>
    cases shouldPreserveThinkingSuffix lib settings (chained base chain') with
    | true =>
      rw [if_pos rfl, if_neg Bool.false_ne_true, boundNames_eq_nil_iff]
      refine ⟨fun h => ⟨.inr h, .inr (.inl (hunasked h))⟩, fun h => ?_⟩
      exact h.1.resolve_left (by decide)
    | false =>
      rw [if_neg Bool.false_ne_true, if_neg Bool.false_ne_true]
      constructor
      · intro hnames
        refine ⟨.inl rfl, .inr ?_⟩
        by_contra hdiffers
        rw [not_or, not_not] at hdiffers
        obtain ⟨hcontradictory, hne⟩ := hdiffers
        have hdistinct := @boundNames_ne F lib settings base _ hcontradictory
        cases last <;> cases last'
        · exact hne rfl
        · exact hdistinct hnames.symm
        · exact hdistinct hnames
        · exact hne rfl
      · rintro ⟨-, hkept | horder⟩
        · cases hkept
        · rw [agreed_last horder]

end

/-! ### Changes that keep the order -/

theorem effortLast_letterCase (before after : List String) {segment' : String} {m' : Modifier}
    (hm : parseModelModifierSegment segment = some m)
    (hm' : parseModelModifierSegment segment' = some m') (hkey : m.key = m'.key) :
    effortLast ((before ++ segment :: after).filterMap parseModelModifierSegment)
      = effortLast ((before ++ segment' :: after).filterMap parseModelModifierSegment) := by
  simp only [effortLast, List.filterMap_append, List.filterMap_cons, hm, hm', List.filter_append,
    List.filter_cons, hkey]
  split
  · simp only [List.getLast?_append, List.getLast?_cons, Option.map_or]
    cases ((after.filterMap parseModelModifierSegment).filter fun m =>
      m.key == "thinking" || m.key == "effort").getLast? <;> simp [hkey]
  · rfl

theorem effortLast_sampling (before after : List String)
    (hm : parseModelModifierSegment segment = some m)
    (hsampling : m.key = "temperature" ∨ m.key = "topp") :
    effortLast ((before ++ segment :: after).filterMap parseModelModifierSegment)
      = effortLast ((before ++ after).filterMap parseModelModifierSegment) := by
  have hother : (m.key == "thinking" || m.key == "effort") = false := by
    rcases hsampling with h | h <;> simp [h]
  simp [effortLast, List.filterMap_append, hm, hother]

theorem variant_qwen :
    canonicalBillingModelNames Library.small Settings.small
        (chained "qwen3-max" ["thinking:on", "temperature:0.2", "EFFORT:High"])
      = canonicalBillingModelNames Library.small Settings.small
        (chained "qwen3-max" ["effort:high", "thinking:on"]) := by
  have hchain : ∀ segment ∈ ["thinking:on", "temperature:0.2", "EFFORT:High"],
      '@' ∉ segment.toList ∧ (parseModelModifierSegment segment).isSome = true := by
    decide +kernel
  have hchain' : ∀ segment ∈ ["effort:high", "thinking:on"],
      '@' ∉ segment.toList ∧ (parseModelModifierSegment segment).isSome = true := by
    decide +kernel
  have hthinking : parseModelModifierSegment "thinking:on" = some ⟨"thinking", "on"⟩ := by
    decide +kernel
  have heffort : parseModelModifierSegment "effort:high" = some ⟨"effort", "high"⟩ := by
    decide +kernel
  have hEFFORT : parseModelModifierSegment "EFFORT:High" = some ⟨"effort", "High"⟩ := by
    decide +kernel
  have htemperature : parseModelModifierSegment "temperature:0.2"
      = some ⟨"temperature", "0.2"⟩ := by
    decide +kernel
  have hvariant : Variant ["thinking:on", "temperature:0.2", "EFFORT:High"]
      ["effort:high", "thinking:on"] :=
    (Variant.sampling ["thinking:on"] ["EFFORT:High"] htemperature (Or.inl rfl)).trans
      ((Variant.letterCase ["thinking:on"] [] hEFFORT heffort rfl (by decide +kernel)).trans
        (Variant.swap [] [] hthinking heffort (by decide)))
  refine (canonicalBillingModelNames_variant_iff ⟨by decide, by decide +kernel⟩ hchain hchain'
    hvariant).mpr ⟨.inl (by decide +kernel), .inr (.inl ?_)⟩
  rintro ⟨intent, effort, hasked, hmode, -⟩
  have henabled : (askedThinking (["thinking:on", "temperature:0.2", "EFFORT:High"].filterMap
      parseModelModifierSegment)).map Intent.mode = some .enabled := by
    decide +kernel
  rw [hasked, Option.map_some, hmode] at henabled
  exact absurd henabled (by decide)

/-- Of a thinking that disables and an effort that enables the later one wins; and a name that is on
the list of names that are kept is not read at all, however its variants are. -/
theorem order_matters :
    canonicalBillingModelNames Library.small Settings.small "qwen3-max@thinking:off@effort:high"
        = ["qwen3-max@effort:high@thinking:on", "qwen3-max@thinking:on"] ∧
      canonicalBillingModelNames Library.small Settings.small "qwen3-max@effort:high@thinking:off"
        = ["qwen3-max@thinking:off"] ∧
      canonicalBillingModelNames Library.small
          { Settings.small with thinkingModelBlacklist := ["qwen3-max@thinking:on"] }
          "qwen3-max@thinking:on" = [] ∧
      canonicalBillingModelNames Library.small
          { Settings.small with thinkingModelBlacklist := ["qwen3-max@thinking:on"] }
          "qwen3-max@thinking:on@topp:0.9" = ["qwen3-max@thinking:on"] := by
  refine ⟨?_, ?_, ?_, ?_⟩ <;> decide +kernel

end ModelModifier

end JulongApi
