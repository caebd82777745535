/-
The reasoning controls in the name of a model, as they are sent upstream and as they are billed:
`relaykit/relayconvert/reasoning/suffix.go` and `intent.go`, `setting/reasoning/suffix.go`,
`relay/helper/model_modifier.go` and `parseRequestModelName` of `relay/helper/reasoning_suffix.go`.

The request and the bill read the same name with a loop of their own over its `@` modifiers, and
resolve what contradicts itself there with a function of their own.  The texts of the errors are left
out: an error says which value is refused.
-/
import JulongApi.Strings

namespace JulongApi.ModelModifier

/-! ### Intents -/

/-- `Effort`; `unset` is the empty string. -/
inductive Effort
  | unset
  | none
  | minimal
  | low
  | medium
  | high
  | xhigh
  | max
deriving DecidableEq, Repr

def Effort.text : Effort → String
  | .unset => ""
  | .none => "none"
  | .minimal => "minimal"
  | .low => "low"
  | .medium => "medium"
  | .high => "high"
  | .xhigh => "xhigh"
  | .max => "max"

inductive Mode
  | unset
  | enabled
  | adaptive
  | disabled
deriving DecidableEq, Repr

inductive Source
  | unset
  | explicit
  | native
  | suffix
  | pivot
deriving DecidableEq, Repr

structure Intent where
  mode : Mode
  effort : Effort
  budgetTokens : Option Int
  includeThoughts : Option Bool
  source : Source
  budgetSource : Source
deriving DecidableEq, Repr

def Intent.zero : Intent :=
  { mode := .unset, effort := .unset, budgetTokens := none, includeThoughts := none,
    source := .unset, budgetSource := .unset }

def Intent.hasStrength (i : Intent) : Bool :=
  i.mode ≠ .unset || i.effort ≠ .unset || i.budgetTokens.isSome

inductive NameError
  | unsupportedEffort (value : String)
  | budgetSuffix (modelName : String)
  | thinkingModifier (value : String)
  | effortModifier (value : String)
  | temperatureModifier (value : String)
  | topPModifier (value : String)
  | unsupportedModifier (key : String)
deriving DecidableEq, Repr

def parseEffort (value : String) : Except NameError Effort :=
  match toLower (trimSpace value) with
  | "" => .ok .unset
  | "none" => .ok .none
  | "minimal" => .ok .minimal
  | "low" => .ok .low
  | "medium" => .ok .medium
  | "high" => .ok .high
  | "xhigh" => .ok .xhigh
  | "max" => .ok .max
  | _ => .error (.unsupportedEffort value)

/-- `types.ConversionDiagnostic`; every one of these is a warning. -/
structure Diagnostic where
  code : String
  path : String
  message : String
deriving DecidableEq, Repr

def reasoningDiagnostic (code message : String) : Diagnostic :=
  { code, path := "reasoning", message }

/-- A budget below -1 is the dynamic budget. -/
def clampBudget (intent : Intent) (budget : Int) : Intent × Int × List Diagnostic :=
  if budget < -1 then
    ({ intent with budgetTokens := some (-1) }, -1,
      [reasoningDiagnostic "reasoning_budget_adjusted"
        ("thinking budget " ++ toString budget ++ " is below -1; using the dynamic budget -1")])
  else (intent, budget, [])

/-- What a numeric budget makes of a mode and an effort. -/
def applyBudget (intent : Intent) (budget : Int) : Intent × List Diagnostic :=
  if budget = 0 then
    let conflict :=
      if intent.mode = .enabled ∨ intent.mode = .adaptive ∨
          intent.effort ≠ .unset ∧ intent.effort ≠ .none then
        [reasoningDiagnostic "explicit_fields_conflict"
          "a zero thinking budget disables thinking; the enabling mode or effort was ignored"]
      else []
    ({ intent with mode := .disabled, effort := .none }, conflict)
  else if intent.mode = .disabled ∨ intent.effort = .none then
    ({ intent with mode := .enabled, effort := .unset },
      [reasoningDiagnostic "explicit_fields_conflict"
        ("a non-zero thinking budget " ++ toString budget ++
          " enables thinking; the disabling mode or effort was ignored")])
  else if intent.mode = .unset then ({ intent with mode := .enabled }, [])
  else (intent, [])

/-- What the effort `none` makes of a mode. -/
def applyNone (intent : Intent) : Intent × List Diagnostic :=
  if intent.effort = .none then
    let conflict :=
      if intent.mode = .enabled ∨ intent.mode = .adaptive then
        [reasoningDiagnostic "explicit_fields_conflict"
          "effort none disables thinking; the enabling mode was ignored"]
      else []
    ({ intent with mode := .disabled }, conflict)
  else (intent, [])

def applyBudgetTokens (intent : Intent) : Intent × List Diagnostic :=
  match intent.budgetTokens with
  | none => (intent, [])
  | some budget =>
    let (intent, budget, clamped) := clampBudget intent budget
    let (intent, applied) := applyBudget intent budget
    (intent, clamped ++ applied)

/-- The intent that is sent upstream.  A mode that the source does not know is not a `Mode`. -/
def normalizeIntent (intent : Intent) : Except NameError (Intent × List Diagnostic) :=
  match parseEffort intent.effort.text with
  | .error e => .error e
  | .ok effort =>
    let (intent, diagnostics) := applyBudgetTokens { intent with effort := effort }
    let (intent, conflict) := applyNone intent
    .ok (intent, diagnostics ++ conflict)

/-! ### The modifiers of a name -/

structure Modifier where
  key : String
  value : String
deriving DecidableEq, Repr

/-- `ModelModifierSpec`. -/
structure Spec where
  raw : String
  base : String
  modifiers : List Modifier
deriving DecidableEq, Repr

def isLetter (c : Char) : Bool := ('a' ≤ c && c ≤ 'z') || ('A' ≤ c && c ≤ 'Z')

def isKeyChar (c : Char) : Bool := isLetter c || ('0' ≤ c && c ≤ '9') || c == '_' || c == '-'

def parseModelModifierSegment (segment : String) : Option Modifier :=
  match cut segment ":" with
  | none => none
  | some (key, value) =>
    match key.toList with
    | [] => none
    | first :: rest =>
      if isLetter first && rest.all isKeyChar then some { key := toLower key, value } else none

/-- The modifiers at the end of the segments of a name, which are given from the last one on. -/
def trailingModifiers : List String → List Modifier → List Modifier
  | [], modifiers => modifiers
  | segment :: before, modifiers =>
    match parseModelModifierSegment segment with
    | none => modifiers
    | some modifier => trailingModifiers before (modifier :: modifiers)

def parseModelModifiers (modelName : String) : Spec :=
  let parts := split modelName '@'
  let modifiers := trailingModifiers parts.tail.reverse []
  let base := "@".intercalate (parts.take (parts.length - modifiers.length))
  if modifiers = [] ∨ base = "" then { raw := modelName, base := modelName, modifiers := [] }
  else { raw := modelName, base, modifiers }

/-- The modifiers whose index is `last[modifier.Key]`: no later one has the key. -/
def rightmost : List Modifier → List Modifier
  | [] => []
  | modifier :: rest =>
    if rest.any (·.key == modifier.key) then rightmost rest else modifier :: rightmost rest

def parseThinkingModifier (raw : String) : Option Intent :=
  match toLower (trimSpace raw) with
  | "on" => some { Intent.zero with mode := .enabled, source := .suffix }
  | "adaptive" => some { Intent.zero with mode := .adaptive, source := .suffix }
  | "off" => some { Intent.zero with mode := .disabled, effort := .none, source := .suffix }
  | value =>
    match atoi value with
    | none => none
    | some budget =>
      if budget < -1 then none
      else if budget = 0 then
        some { Intent.zero with mode := .disabled, effort := .none, source := .suffix }
      else
        some { Intent.zero with
          mode := .enabled, budgetTokens := some budget, source := .suffix,
          budgetSource := .suffix }

/-! ### The suffixes of a name -/

def effortSuffixes : List String :=
  ["-max", "-xhigh", "-high", "-medium", "-low", "-minimal", "-none"]

/-- `TrimEffortSuffixWithSuffixes`: the base and the effort. -/
def trimEffortSuffixWithSuffixes (modelName : String) (suffixes : List String) :
    Option (String × String) :=
  (suffixes.find? (hasSuffix modelName)).map fun suffix =>
    ((cutSuffix modelName suffix).getD modelName, trimPrefix suffix "-")

def splitModelNamespace (modelName : String) : String × String :=
  match lastIndex modelName "/" with
  | none => ("", modelName)
  | some slash =>
    (String.ofList (modelName.toList.take (slash + 1)),
      String.ofList (modelName.toList.drop (slash + 1)))

def isLowerAlnum (c : Char) : Bool := ('a' ≤ c && c ≤ 'z') || ('0' ≤ c && c ≤ '9')

/-- `[a-z0-9._-]` -/
def isNameChar (c : Char) : Bool := isLowerAlnum c || c == '.' || c == '_' || c == '-'

/-- `[a-z0-9][a-z0-9._-]*` -/
def isFamilyTail : List Char → Bool
  | [] => false
  | first :: rest => isLowerAlnum first && rest.all isNameChar

def legacyModelPattern (family modelName : String) : Bool :=
  match cutPrefix modelName family with
  | none => false
  | some tail => isFamilyTail tail.toList

def legacyOpenAIModelPattern (modelName : String) : Bool :=
  legacyModelPattern "gpt-" modelName ||
    match modelName.toList with
    | 'o' :: digit :: rest => ('1' ≤ digit && digit ≤ '9') && rest.all isNameChar
    | _ => false

/-- The thoughts are asked for by every suffix that enables them. -/
def parseProviderModelSuffix (modelName requiredPrefix : String) (allowSuffixAlias : Bool) :
    Except NameError (Option (String × Intent)) :=
  if !allowSuffixAlias then .ok none
  else
    match lastIndex modelName "-thinking-" with
    | some marker =>
      let baseModel := String.ofList (modelName.toList.take marker)
      if !hasPrefix baseModel requiredPrefix then .ok none
      else
        match atoi (String.ofList (modelName.toList.drop (marker + "-thinking-".length))) with
        | none => .error (.budgetSuffix modelName)
        | some budget =>
          .ok (some (baseModel, { Intent.zero with
            budgetTokens := some budget, includeThoughts := some true, source := .suffix,
            budgetSource := .suffix }))
    | none =>
      match cutSuffix modelName "-nothinking" with
      | some baseModel =>
        .ok (some (baseModel,
          { Intent.zero with mode := .disabled, effort := .none, source := .suffix }))
      | none =>
        match cutSuffix modelName "-thinking" with
        | some baseModel =>
          .ok (some (baseModel,
            { Intent.zero with
              mode := .enabled, includeThoughts := some true, source := .suffix }))
        | none =>
          match trimEffortSuffixWithSuffixes modelName effortSuffixes with
          | none => .ok none
          | some (baseModel, rawEffort) =>
            if !hasPrefix baseModel requiredPrefix then .ok none
            else
              match parseEffort rawEffort with
              | .error e => .error e
              | .ok effort =>
                let intent :=
                  { Intent.zero with mode := .enabled, effort, source := .suffix }
                .ok (some (baseModel,
                  if effort = .none then { intent with mode := .disabled }
                  else { intent with includeThoughts := some true }))

/-- `ParseClaudeModelSuffix` and `ParseGeminiModelSuffix`, of a family of models. -/
def parseFamilyModelSuffix (family modelName : String) (allowSuffixAlias : Bool) :
    Except NameError (Option (String × Intent)) :=
  let (start, bare) := splitModelNamespace modelName
  if !hasPrefix bare family then .ok none
  else
    match parseProviderModelSuffix bare family allowSuffixAlias with
    | .error e => .error e
    | .ok none => .ok none
    | .ok (some (base, intent)) =>
      if legacyModelPattern family base then .ok (some (start ++ base, intent)) else .ok none

def parseClaudeModelSuffix := parseFamilyModelSuffix "claude-"

def parseGeminiModelSuffix := parseFamilyModelSuffix "gemini-"

/-! ### The settings -/

/-- What is used of Go's library: how a regular expression is compiled and matched, and what
`strconv.ParseFloat` reads as a finite number. -/
structure Library (F : Type) where
  compile : String → Option (String → Bool)
  parseFloat : String → Option F

structure Settings where
  thinkingModelBlacklist : List String
  effortTailModelIDs : List String
  /-- `GetClaudeSettings().ThinkingAdapterEnabled` -/
  claudeThinkingAdapterEnabled : Bool
  /-- `GetGeminiSettings().ThinkingAdapterEnabled` -/
  geminiThinkingAdapterEnabled : Bool
deriving Repr

structure Options where
  claudeThinkingAdapterEnabled : Bool
  geminiThinkingAdapterEnabled : Bool
  shouldPreserveThinkingSuffix : String → Bool

/-- `parsedModelModifiers`. -/
structure Parsed (F : Type) where
  base : String
  hasSyntax : Bool
  intent : Intent
  hasThinking : Bool
  temperature : Option F
  topP : Option F
  diagnostics : List Diagnostic

def modelModifierDiagnostic (code key message : String) : Diagnostic :=
  { code, path := "model.@" ++ key, message }

section

variable {F : Type} (lib : Library F) (settings : Settings)

def Library.compileEntry (exact : List String) (regexes : List (String → Bool)) (entry : String) :
    List String × List (String → Bool) :=
  let entry := trimSpace entry
  if entry = "" then (exact, regexes)
  else
    match cutPrefix entry "re:" with
    | none => (exact ++ [entry], regexes)
    | some pattern =>
      if pattern = "" then (exact, regexes)
      else
        match lib.compile pattern with
        | none => (exact, regexes)
        | some re => (exact, regexes ++ [re])

/-- `compiledThinkingBlacklist`, which keeps what it returns as long as the entries are the same. -/
def Library.compiledThinkingBlacklist (entries : List String) :
    List String × List (String → Bool) :=
  entries.foldl (fun (exact, regexes) entry => lib.compileEntry exact regexes entry) ([], [])

def shouldPreserveThinkingSuffix (modelName : String) : Bool :=
  let target := trimSpace modelName
  if target = "" then false
  else
    let (exact, regexes) := lib.compiledThinkingBlacklist settings.thinkingModelBlacklist
    exact.contains target || regexes.any fun re => re target

def shouldPreserveEffortTail (modelName : String) : Bool :=
  let target := trimSpace modelName
  if target = "" then false
  else
    let bare := (splitModelNamespace target).2
    settings.effortTailModelIDs.any fun entry =>
      let entry := trimSpace entry
      entry ≠ "" && (entry = target || entry = bare)

def convOptions : Options :=
  { claudeThinkingAdapterEnabled := settings.claudeThinkingAdapterEnabled
    geminiThinkingAdapterEnabled := settings.geminiThinkingAdapterEnabled
    shouldPreserveThinkingSuffix := shouldPreserveThinkingSuffix lib settings }

/-- The effort, which is empty when there is none, and the base. -/
def parseOpenAIReasoningEffortFromModelSuffix (modelName : String) : String × String :=
  if shouldPreserveEffortTail settings modelName then ("", modelName)
  else
    match trimEffortSuffixWithSuffixes modelName effortSuffixes with
    | none => ("", modelName)
    | some (baseModel, effort) =>
      if legacyOpenAIModelPattern (splitModelNamespace baseModel).2 then (effort, baseModel)
      else ("", modelName)

/-- The base and the intent of a name that has a suffix. -/
def parseLegacyModelSuffix (modelName : String)
    (allowClaudeThinkingAlias allowGeminiThinkingAlias : Bool) :
    Except NameError (Option (String × Intent)) :=
  let (start, bare) := splitModelNamespace modelName
  let found :=
    if hasPrefix bare "claude-" then parseClaudeModelSuffix bare allowClaudeThinkingAlias
    else if hasPrefix bare "gemini-" then parseGeminiModelSuffix bare allowGeminiThinkingAlias
    else
      let (effort, openAIBase) := parseOpenAIReasoningEffortFromModelSuffix settings bare
      if effort = "" then .ok none
      else
        match parseEffort effort with
        | .error e => .error e
        | .ok parsedEffort =>
          let mode := if parsedEffort = .none then Mode.disabled else Mode.enabled
          .ok (some (openAIBase,
            { Intent.zero with mode, effort := parsedEffort, source := .suffix }))
  match found with
  | .error e => .error e
  | .ok none => .ok none
  | .ok (some (base, intent)) => .ok (some (start ++ base, intent))

/-! ### What is sent upstream -/

/-- One turn of the second loop of `parseExplicitModelModifiers`. -/
def Library.applyModifier (parsed : Parsed F) (modifier : Modifier) :
    Except NameError (Parsed F) :=
  match modifier.key with
  | "thinking" =>
    match parseThinkingModifier modifier.value with
    | none => .error (.thinkingModifier modifier.value)
    | some intent =>
      let merged :=
        if parsed.hasThinking ∧ intent.mode ≠ .disabled ∧ intent.budgetTokens = none then
          { parsed.intent with mode := intent.mode, source := .suffix }
        else if parsed.hasThinking ∧ intent.mode ≠ .disabled then
          { parsed.intent with
            mode := intent.mode, budgetTokens := intent.budgetTokens,
            budgetSource := intent.budgetSource, source := .suffix }
        else intent
      .ok { parsed with intent := merged, hasThinking := true }
  | "effort" =>
    match parseEffort modifier.value with
    | .error _ => .error (.effortModifier modifier.value)
    | .ok .unset => .error (.effortModifier modifier.value)
    | .ok .none =>
      .ok { parsed with
        intent := { Intent.zero with mode := .disabled, effort := .none, source := .suffix }
        hasThinking := true }
    | .ok effort =>
      let mode :=
        if parsed.intent.mode = .unset ∨ parsed.intent.mode = .disabled then Mode.enabled
        else parsed.intent.mode
      .ok { parsed with
        intent := { parsed.intent with mode, effort, source := .suffix }, hasThinking := true }
  | "temperature" =>
    match lib.parseFloat (trimSpace modifier.value) with
    | none => .error (.temperatureModifier modifier.value)
    | some value => .ok { parsed with temperature := some value }
  | "topp" =>
    match lib.parseFloat (trimSpace modifier.value) with
    | none => .error (.topPModifier modifier.value)
    | some value => .ok { parsed with topP := some value }
  | key => .error (.unsupportedModifier key)

/-- The first loop of `parseExplicitModelModifiers`, after the keys in `seen`. -/
def duplicateDiagnostics : List String → List Modifier → List Diagnostic
  | _, [] => []
  | seen, modifier :: rest =>
    (if seen.contains modifier.key then
      [modelModifierDiagnostic "duplicate_model_modifier" modifier.key
        ("model modifier \"" ++ modifier.key ++
          "\" is repeated; the rightmost value is used")]
    else []) ++ duplicateDiagnostics (modifier.key :: seen) rest

def parseExplicitModelModifiers (modelName : String) : Except NameError (Parsed F) :=
  let spec := parseModelModifiers modelName
  (rightmost spec.modifiers).foldlM lib.applyModifier
    { base := spec.base, hasSyntax := !spec.modifiers.isEmpty, intent := Intent.zero,
      hasThinking := false, temperature := none, topP := none,
      diagnostics := duplicateDiagnostics [] spec.modifiers }

def parseHostModelSuffix (name : String) (opts : Options) :
    Except NameError (Option (String × Intent)) :=
  if name = "" then .ok none
  else
    parseLegacyModelSuffix settings name opts.claudeThinkingAdapterEnabled
      opts.geminiThinkingAdapterEnabled

def parseRequestModelName (name : String) (opts : Options) : Except NameError (Parsed F) :=
  if opts.shouldPreserveThinkingSuffix name then
    .ok { base := name, hasSyntax := false, intent := Intent.zero, hasThinking := false,
          temperature := none, topP := none, diagnostics := [] }
  else
    match parseExplicitModelModifiers lib name with
    | .error e => .error e
    | .ok parsed =>
      if opts.shouldPreserveThinkingSuffix parsed.base then .ok parsed
      else
        match parseHostModelSuffix settings parsed.base opts with
        | .error e => .error e
        | .ok none => .ok parsed
        | .ok (some (legacyBase, legacyIntent)) =>
          if parsed.hasThinking then .ok { parsed with base := legacyBase }
          else
            .ok { parsed with base := legacyBase, intent := legacyIntent, hasThinking := true }

/-! ### What is billed -/

/-- One turn of the second loop of `billingIntentFromModifiers`, which leaves out what it cannot
read. -/
def billModifier : Intent × Bool → Modifier → Intent × Bool
  | (intent, hasThinking), modifier =>
    match modifier.key with
    | "thinking" =>
      match parseThinkingModifier modifier.value with
      | none => (intent, hasThinking)
      | some parsed =>
        let merged :=
          if hasThinking ∧ parsed.mode ≠ .disabled ∧ parsed.budgetTokens = none then
            { intent with mode := parsed.mode, source := .suffix }
          else if hasThinking ∧ parsed.mode ≠ .disabled then
            { intent with
              mode := parsed.mode, budgetTokens := parsed.budgetTokens,
              budgetSource := parsed.budgetSource, source := .suffix }
          else parsed
        (merged, true)
    | "effort" =>
      match parseEffort modifier.value with
      | .error _ => (intent, hasThinking)
      | .ok .unset => (intent, hasThinking)
      | .ok .none =>
        ({ Intent.zero with mode := .disabled, effort := .none, source := .suffix }, true)
      | .ok effort =>
        let mode :=
          if intent.mode = .unset ∨ intent.mode = .disabled then Mode.enabled
          else intent.mode
        ({ intent with mode, effort, source := .suffix }, true)
    | _ => (intent, hasThinking)

def billingIntentFromModifiers (spec : Spec) : Intent × Bool :=
  (rightmost spec.modifiers).foldl billModifier (Intent.zero, false)

/-- What a bill says of the thinking and of the effort. -/
def normalizeBillingThinking (intent : Intent) : Option (String × String) :=
  if intent.effort = .none ∨ intent.mode = .disabled then some ("off", "")
  else if intent.budgetTokens = some 0 then some ("off", "")
  else if intent.effort ≠ .unset then some ("on", toLower intent.effort.text)
  else if intent.mode = .enabled ∨ intent.mode = .adaptive ∨ intent.budgetTokens.isSome then
    some ("on", "")
  else none

/-- The names without the base and without what was there before. -/
def distinctNames (base : String) : List String → List String → List String
  | _, [] => []
  | seen, name :: rest =>
    if name = "" ∨ name = base then distinctNames base seen rest
    else if seen.contains name then distinctNames base seen rest
    else name :: distinctNames base (name :: seen) rest

def canonicalNamesFromIntent (base : String) (intent : Intent) : List String :=
  match normalizeBillingThinking intent with
  | none => []
  | some (thinking, effort) =>
    if base = "" then []
    else
      let names :=
        if effort ≠ "" then [base ++ "@effort:" ++ effort ++ "@thinking:" ++ thinking] else []
      let thinkingForm := base ++ "@thinking:" ++ thinking
      distinctNames base [] (if thinkingForm ≠ base then names ++ [thinkingForm] else names)

/-- The base and the intent that `CanonicalBillingModelNames` names, and whether there is one. -/
def billedIntent (spec : Spec) : String × Intent × Bool :=
  let intent := (billingIntentFromModifiers spec).1
  let hasThinking := (billingIntentFromModifiers spec).2
  if shouldPreserveThinkingSuffix lib settings spec.base then (spec.base, intent, hasThinking)
  else
    match parseLegacyModelSuffix settings spec.base settings.claudeThinkingAdapterEnabled
        settings.geminiThinkingAdapterEnabled with
    | .ok (some (legacyBase, legacyIntent)) =>
      if hasThinking then (legacyBase, intent, hasThinking) else (legacyBase, legacyIntent, true)
    | _ => (spec.base, intent, hasThinking)

def canonicalBillingModelNames (modelName : String) : List String :=
  if shouldPreserveThinkingSuffix lib settings modelName then []
  else
    let (base, intent, hasThinking) := billedIntent lib settings (parseModelModifiers modelName)
    if hasThinking then canonicalNamesFromIntent base intent else []

end

end JulongApi.ModelModifier
