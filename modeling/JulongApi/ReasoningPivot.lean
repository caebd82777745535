/-
The reasoning controls of an OpenAI request, written and read back:
`relaykit/relayconvert/reasoning/intent.go`.

A request carries the controls twice, as the effort that the protocol has and as a state that never
leaves the process.  The mode and the effort of a state are any text.
-/
import JulongApi.ModelModifier

namespace JulongApi.ModelModifier

def Mode.text : Mode → String
  | .unset => ""
  | .enabled => "enabled"
  | .adaptive => "adaptive"
  | .disabled => "disabled"

def parseMode (mode : String) : Option Mode :=
  match mode with
  | "" => some .unset
  | "enabled" => some .enabled
  | "adaptive" => some .adaptive
  | "disabled" => some .disabled
  | _ => none

/-- `Intent`, whose mode and effort are any text. -/
structure WrittenIntent where
  mode : String := ""
  effort : String := ""
  budgetTokens : Option Int := none
  includeThoughts : Option Bool := none
  source : Source := .unset
  budgetSource : Source := .unset
deriving DecidableEq, Repr

def Intent.written (i : Intent) : WrittenIntent :=
  { mode := i.mode.text, effort := i.effort.text, budgetTokens := i.budgetTokens,
    includeThoughts := i.includeThoughts, source := i.source, budgetSource := i.budgetSource }

inductive IntentError
  | effort (error : NameError)
  | mode (mode : String)
  /-- The `reasoning` of a request that is not the JSON of one. -/
  | reasoning (message : String)
deriving DecidableEq, Repr

def readEffort (value : String) : Except IntentError Effort :=
  (parseEffort value).mapError IntentError.effort

/-- `normalizeIntent`, of any texts. -/
def normalizeWritten (w : WrittenIntent) : Except IntentError (Intent × List Diagnostic) :=
  match readEffort w.effort with
  | .error e => .error e
  | .ok effort =>
    match parseMode w.mode with
    | none => .error (.mode w.mode)
    | some mode =>
      let (intent, diagnostics) := applyBudgetTokens
        { mode, effort, budgetTokens := w.budgetTokens, includeThoughts := w.includeThoughts,
          source := w.source, budgetSource := w.budgetSource }
      let (intent, conflict) := applyNone intent
      .ok (intent, diagnostics ++ conflict)

def Intent.isEmpty (i : Intent) : Bool := !i.hasStrength && i.includeThoughts.isNone

def effortFromBudget (budget : Int) : Effort :=
  if budget = 0 then .none
  else if budget < 0 then .high
  else if budget ≤ 1024 then .low
  else if budget ≤ 8192 then .medium
  else .high

def Intent.strength (i : Intent) : Effort :=
  if i.mode = .disabled then .none
  else if i.effort ≠ .unset then i.effort
  else
    match i.budgetTokens with
    | some budget => effortFromBudget budget
    | none => if i.mode = .enabled ∨ i.mode = .adaptive then .high else .unset

def effectiveEffort (w : WrittenIntent) : Effort :=
  match normalizeWritten w with
  | .error _ => .unset
  | .ok (intent, _) => intent.strength

def Intent.disables (i : Intent) : Bool := i.mode = .disabled || i.effort = .none

section

-- `quote` is how `%q` writes a text
variable (quote : String → String)

/-- The first intent wins where both speak. -/
def mergeExplicit (primary secondary : WrittenIntent) (model : String) :
    Except IntentError (Intent × List Diagnostic) := do
  let (primary, diagnostics) ← normalizeWritten primary
  let (secondary, secondaryDiagnostics) ← normalizeWritten secondary
  let diagnostics := diagnostics ++ secondaryDiagnostics
  if primary.isEmpty then return (secondary, diagnostics)
  if secondary.isEmpty then return (primary, diagnostics)
  let conflict (message : String) : List Diagnostic :=
    [reasoningDiagnostic "explicit_fields_conflict" ("model " ++ quote model ++ ": " ++ message)]
  if primary.hasStrength && secondary.hasStrength && primary.disables != secondary.disables then
    let includeThoughts := primary.includeThoughts <|> secondary.includeThoughts
    return ({ primary with includeThoughts },
      diagnostics ++ conflict ("reasoning fields disagree about whether thinking is enabled; " ++
        "keeping the more specific field"))
  let efforts :=
    if primary.effort ≠ .unset ∧ secondary.effort ≠ .unset ∧ primary.effort ≠ secondary.effort then
      conflict ("reasoning efforts " ++ quote primary.effort.text ++ " and " ++
        quote secondary.effort.text ++ " differ; keeping " ++ quote primary.effort.text)
    else []
  let budgets :=
    match primary.budgetTokens, secondary.budgetTokens with
    | some budget, some other =>
      if budget ≠ other then
        conflict ("thinking budgets " ++ toString budget ++ " and " ++ toString other ++
          " differ; keeping " ++ toString budget)
      else []
    | _, _ => []
  let merged : Intent := {
    mode := if primary.mode ≠ .unset then primary.mode else secondary.mode
    effort := if primary.effort ≠ .unset then primary.effort else secondary.effort
    budgetTokens := primary.budgetTokens <|> secondary.budgetTokens
    includeThoughts := primary.includeThoughts <|> secondary.includeThoughts
    source := secondary.source
    budgetSource :=
      if primary.budgetTokens.isSome then primary.budgetSource else secondary.budgetSource }
  let (merged, mergedDiagnostics) ← normalizeWritten merged.written
  return (merged, diagnostics ++ efforts ++ budgets ++ mergedDiagnostics)

/-! ### Requests -/

structure ReasoningConversionState where
  mode : String
  effort : String
  budgetTokens : Option Int
  includeThoughts : Option Bool
deriving DecidableEq, Repr

def Intent.state (i : Intent) : ReasoningConversionState :=
  { mode := i.mode.text, effort := i.effort.text, budgetTokens := i.budgetTokens,
    includeThoughts := i.includeThoughts }

def ReasoningConversionState.pivot (s : ReasoningConversionState) : WrittenIntent :=
  { mode := s.mode, effort := s.effort, budgetTokens := s.budgetTokens,
    includeThoughts := s.includeThoughts, source := .pivot, budgetSource := .pivot }

structure OpenRouterReasoning where
  enabled : Option Bool
  effort : String
  maxTokens : Option Int
  exclude : Option Bool
deriving DecidableEq, Repr

/-- What is read and written of `dto.GeneralOpenAIRequest`. -/
structure ChatRequest where
  model : String
  reasoningEffort : String
  /-- What the JSON of `reasoning` holds, if there is any. -/
  reasoning : Option (Except String OpenRouterReasoning)
  reasoningConversion : Option ReasoningConversionState

structure Reasoning where
  effort : String
  summary : String
deriving DecidableEq, Repr

/-- What is read and written of `dto.OpenAIResponsesRequest`. -/
structure ResponsesRequest where
  model : String
  reasoning : Option Reasoning
  reasoningConversion : Option ReasoningConversionState
deriving DecidableEq, Repr

/-- What an effort of the protocol says, which is none if it is the empty text. -/
def explicitIntent (intent : Intent) (reasoningEffort : String) : Except IntentError Intent :=
  if reasoningEffort = "" then .ok intent
  else do
    let effort ← readEffort reasoningEffort
    return { intent with effort, mode := if effort = .none then .disabled else .enabled }

def OpenRouterReasoning.intent (raw : OpenRouterReasoning) : Except IntentError Intent := do
  let nested : Intent :=
    { Intent.zero with
      mode := match raw.enabled with
        | none => .unset
        | some true => .enabled
        | some false => .disabled
      effort := if raw.enabled = some false then .none else .unset
      budgetTokens := raw.maxTokens
      includeThoughts := raw.exclude.map (!·)
      source := .explicit
      budgetSource := .explicit }
  if raw.effort = "" then return nested
  let effort ← readEffort raw.effort
  return { nested with
    effort
    mode :=
      if effort = .none then .disabled
      else if nested.mode = .unset then .enabled
      else nested.mode }

/-- What the protocol says, less an effort that is the one of the state. -/
def withoutEcho (intent : Intent) (reasoningEffort : String) (pivot : WrittenIntent) : Intent :=
  if reasoningEffort ≠ "" ∧ reasoningEffort = (effectiveEffort pivot).text then
    { intent with effort := .unset, mode := .unset }
  else intent

def fromOpenAIChat (req : ChatRequest) : Except IntentError (Intent × List Diagnostic) := do
  let intent ← explicitIntent { Intent.zero with source := .explicit } req.reasoningEffort
  let (intent, diagnostics) ←
    match req.reasoning with
    | none => .ok (intent, [])
    | some (.error message) => .error (.reasoning message)
    | some (.ok raw) => do
        let nested ← raw.intent
        mergeExplicit quote intent.written nested.written req.model
  match req.reasoningConversion with
  | none =>
    let (normalized, normalizeDiagnostics) ← normalizeWritten intent.written
    return (normalized, diagnostics ++ normalizeDiagnostics)
  | some state =>
    let intent := withoutEcho intent req.reasoningEffort state.pivot
    let (merged, mergeDiagnostics) ← mergeExplicit quote intent.written state.pivot req.model
    return (merged, diagnostics ++ mergeDiagnostics)

def Reasoning.intent (r : Reasoning) : Except IntentError Intent := do
  let intent ← explicitIntent { Intent.zero with source := .explicit } r.effort
  if r.summary ≠ "" then return { intent with includeThoughts := some true }
  return intent

def fromOpenAIResponses (req : ResponsesRequest) :
    Except IntentError (Intent × List Diagnostic) := do
  let intent ←
    match req.reasoning with
    | none => .ok Intent.zero
    | some reasoning => reasoning.intent
  match req.reasoningConversion with
  | none => normalizeWritten intent.written
  | some state =>
    let effort := (req.reasoning.map (·.effort)).getD ""
    mergeExplicit quote (withoutEcho intent effort state.pivot).written state.pivot req.model

end

def applyToOpenAIChat (req : ChatRequest) (intent : WrittenIntent) :
    Except IntentError ChatRequest := do
  let (intent, _) ← normalizeWritten intent
  let effort := effectiveEffort intent.written
  let req := if effort ≠ .unset then { req with reasoningEffort := effort.text } else req
  if intent.isEmpty then return req
  return { req with reasoningConversion := some intent.state }

def applyToOpenAIResponses (req : ResponsesRequest) (intent : WrittenIntent) :
    Except IntentError ResponsesRequest := do
  let (intent, _) ← normalizeWritten intent
  let effort := effectiveEffort intent.written
  let summary := if effort = .none ∨ intent.includeThoughts = some false then "" else "detailed"
  let req :=
    if effort ≠ .unset then { req with reasoning := some { effort := effort.text, summary } }
    else req
  if intent.isEmpty then return req
  return { req with reasoningConversion := some intent.state }

end JulongApi.ModelModifier
