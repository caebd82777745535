/-
Usage snapshots laid over one another: `relaykit/dto/usage_merge.go`.

A pointer to a snapshot that is not there leaves everything as it is, and is left out, and so are the
cost, which is no count, and `OutputTokensDetails`, which no merge reads.  The clones of a payload
carry no payload of their own, so a payload is the counts of a dialect alone.  Capital letters are
those of the names of modalities, which are ASCII.
-/
import JulongApi.Lib.Int64
import JulongApi.Strings

namespace JulongApi.UsageMerge

/-- A later count overwrites the current one unless it is zero. -/
def overlay (current incoming : Int) : Int := if incoming > 0 then incoming else current

def overlayText (current incoming : String) : String := if incoming ≠ "" then incoming else current

/-! ### OpenAI -/

structure CachedTokenDetails where
  textTokens : Option Int := none
  imageTokens : Option Int := none
  audioTokens : Option Int := none
deriving DecidableEq, Repr

structure InputTokenDetails where
  cachedTokens : Int := 0
  cachedTokensDetails : Option CachedTokenDetails := none
  cachedCreationTokens : Int := 0
  cacheWriteTokens : Int := 0
  textTokens : Int := 0
  audioTokens : Int := 0
  imageTokens : Int := 0
deriving DecidableEq, Repr

structure OutputTokenDetails where
  textTokens : Int := 0
  audioTokens : Int := 0
  imageTokens : Int := 0
  reasoningTokens : Int := 0
deriving DecidableEq, Repr

/-- `Usage`, without its payload. -/
structure Usage where
  promptTokens : Int := 0
  completionTokens : Int := 0
  totalTokens : Int := 0
  promptCacheHitTokens : Int := 0
  usageSemantic : String := ""
  usageSource : String := ""
  promptTokensDetails : InputTokenDetails := {}
  completionTokenDetails : OutputTokenDetails := {}
  inputTokens : Int := 0
  outputTokens : Int := 0
  inputTokensDetails : Option InputTokenDetails := none
  claudeCacheCreation5mTokens : Int := 0
  claudeCacheCreation1hTokens : Int := 0
deriving DecidableEq, Repr

def mergeCachedTokenDetails (current incoming : Option CachedTokenDetails) :
    Option CachedTokenDetails :=
  match incoming with
  | none => current
  | some details =>
    let merged := current.getD {}
    some {
      textTokens := details.textTokens <|> merged.textTokens
      imageTokens := details.imageTokens <|> merged.imageTokens
      audioTokens := details.audioTokens <|> merged.audioTokens }

def mergeInputTokenDetails (current incoming : InputTokenDetails) : InputTokenDetails where
  cachedTokens := overlay current.cachedTokens incoming.cachedTokens
  cachedTokensDetails :=
    mergeCachedTokenDetails current.cachedTokensDetails incoming.cachedTokensDetails
  cachedCreationTokens := overlay current.cachedCreationTokens incoming.cachedCreationTokens
  cacheWriteTokens := overlay current.cacheWriteTokens incoming.cacheWriteTokens
  textTokens := overlay current.textTokens incoming.textTokens
  audioTokens := overlay current.audioTokens incoming.audioTokens
  imageTokens := overlay current.imageTokens incoming.imageTokens

/-- Whether the details say anything. -/
def InputTokenDetails.reports (d : InputTokenDetails) : Bool :=
  d.cachedTokens > 0 || d.cachedCreationTokens > 0 || d.cacheWriteTokens > 0 || d.textTokens > 0 ||
    d.audioTokens > 0 || d.imageTokens > 0 || d.cachedTokensDetails.isSome

def mergeInputTokensDetails (current incoming : Option InputTokenDetails) :
    Option InputTokenDetails :=
  match incoming with
  | none => current
  | some details =>
    if details.reports then some (mergeInputTokenDetails (current.getD {}) details) else current

def mergeOutputTokenDetails (current incoming : OutputTokenDetails) : OutputTokenDetails where
  textTokens := overlay current.textTokens incoming.textTokens
  audioTokens := overlay current.audioTokens incoming.audioTokens
  imageTokens := overlay current.imageTokens incoming.imageTokens
  reasoningTokens := overlay current.reasoningTokens incoming.reasoningTokens

/-- The total is not below the sums of the counts, as an `int` holds them. -/
def Usage.raiseTotal (u : Usage) : Usage :=
  let total := wrapInt64 (u.promptTokens + u.completionTokens)
  let u := if total > u.totalTokens then { u with totalTokens := total } else u
  let total := wrapInt64 (u.inputTokens + u.outputTokens)
  if total > u.totalTokens then { u with totalTokens := total } else u

/-- `MergeUsageNonZero`, of the counts. -/
def mergeUsage (current incoming : Usage) : Usage :=
  Usage.raiseTotal {
    promptTokens := overlay current.promptTokens incoming.promptTokens
    completionTokens := overlay current.completionTokens incoming.completionTokens
    totalTokens := overlay current.totalTokens incoming.totalTokens
    promptCacheHitTokens := overlay current.promptCacheHitTokens incoming.promptCacheHitTokens
    inputTokens := overlay current.inputTokens incoming.inputTokens
    outputTokens := overlay current.outputTokens incoming.outputTokens
    claudeCacheCreation5mTokens :=
      overlay current.claudeCacheCreation5mTokens incoming.claudeCacheCreation5mTokens
    claudeCacheCreation1hTokens :=
      overlay current.claudeCacheCreation1hTokens incoming.claudeCacheCreation1hTokens
    promptTokensDetails :=
      mergeInputTokenDetails current.promptTokensDetails incoming.promptTokensDetails
    inputTokensDetails :=
      mergeInputTokensDetails current.inputTokensDetails incoming.inputTokensDetails
    completionTokenDetails :=
      mergeOutputTokenDetails current.completionTokenDetails incoming.completionTokenDetails
    usageSemantic := overlayText current.usageSemantic incoming.usageSemantic
    usageSource := overlayText current.usageSource incoming.usageSource }

/-! ### Claude -/

structure ClaudeCacheCreationUsage where
  ephemeral5mInputTokens : Int := 0
  ephemeral1hInputTokens : Int := 0
deriving DecidableEq, Repr

structure ClaudeServerToolUse where
  webSearchRequests : Int := 0
  webFetchRequests : Int := 0
  codeExecutionRequests : Int := 0
  toolSearchRequests : Int := 0
deriving DecidableEq, Repr

/-- `ClaudeUsage`, without its payload. -/
structure ClaudeUsage where
  inputTokens : Int := 0
  cacheCreationInputTokens : Int := 0
  cacheReadInputTokens : Int := 0
  outputTokens : Int := 0
  cacheCreation : Option ClaudeCacheCreationUsage := none
  claudeCacheCreation5mTokens : Int := 0
  claudeCacheCreation1hTokens : Int := 0
  serverToolUse : Option ClaudeServerToolUse := none
deriving DecidableEq, Repr

def mergeServerToolUse (current incoming : Option ClaudeServerToolUse) :
    Option ClaudeServerToolUse :=
  match incoming with
  | none => current
  | some use =>
    let merged := current.getD {}
    some {
      webSearchRequests := overlay merged.webSearchRequests use.webSearchRequests
      webFetchRequests := overlay merged.webFetchRequests use.webFetchRequests
      codeExecutionRequests := overlay merged.codeExecutionRequests use.codeExecutionRequests
      toolSearchRequests := overlay merged.toolSearchRequests use.toolSearchRequests }

/-- `MergeClaudeUsageNonZero`, of the counts. -/
def mergeClaudeUsage (current incoming : ClaudeUsage) : ClaudeUsage :=
  let merged : ClaudeUsage := {
    inputTokens := overlay current.inputTokens incoming.inputTokens
    cacheCreationInputTokens :=
      overlay current.cacheCreationInputTokens incoming.cacheCreationInputTokens
    cacheReadInputTokens := overlay current.cacheReadInputTokens incoming.cacheReadInputTokens
    outputTokens := overlay current.outputTokens incoming.outputTokens
    cacheCreation := current.cacheCreation
    claudeCacheCreation5mTokens :=
      overlay current.claudeCacheCreation5mTokens incoming.claudeCacheCreation5mTokens
    claudeCacheCreation1hTokens :=
      overlay current.claudeCacheCreation1hTokens incoming.claudeCacheCreation1hTokens
    serverToolUse := mergeServerToolUse current.serverToolUse incoming.serverToolUse }
  match incoming.cacheCreation with
  | none => merged
  | some cacheCreation =>
    { merged with
      cacheCreation := some cacheCreation
      claudeCacheCreation5mTokens := cacheCreation.ephemeral5mInputTokens
      claudeCacheCreation1hTokens := cacheCreation.ephemeral1hInputTokens }

/-! ### Gemini -/

structure GeminiTokensDetails where
  modality : String
  tokenCount : Int
deriving DecidableEq, Repr

/-- `GeminiUsageMetadata`, without its payload. -/
structure GeminiUsage where
  promptTokenCount : Int := 0
  toolUsePromptTokenCount : Int := 0
  candidatesTokenCount : Int := 0
  totalTokenCount : Int := 0
  thoughtsTokenCount : Int := 0
  cachedContentTokenCount : Int := 0
  promptTokensDetails : List GeminiTokensDetails := []
  toolUsePromptTokensDetails : List GeminiTokensDetails := []
  candidatesTokensDetails : List GeminiTokensDetails := []
deriving DecidableEq, Repr

def normalizeGeminiModality (modality : String) : String := toUpper (trimSpace modality)

def reported (details : List GeminiTokensDetails) (modality : String) : Bool :=
  details.any fun detail =>
    detail.tokenCount > 0 && normalizeGeminiModality detail.modality = modality

def mergeGeminiTokenDetails (current incoming : List GeminiTokensDetails) :
    List GeminiTokensDetails :=
  (current.filter fun detail => !reported incoming (normalizeGeminiModality detail.modality)) ++
    incoming.filter fun detail => detail.tokenCount > 0

def GeminiUsage.sum (u : GeminiUsage) : Int :=
  u.promptTokenCount + u.toolUsePromptTokenCount + u.candidatesTokenCount + u.thoughtsTokenCount

def GeminiUsage.raiseTotal (u : GeminiUsage) : GeminiUsage :=
  let total := wrapInt64 u.sum
  if total > u.totalTokenCount then { u with totalTokenCount := total } else u

/-- `MergeGeminiUsageMetadataNonZero`, of the counts. -/
def mergeGeminiUsage (current incoming : GeminiUsage) : GeminiUsage :=
  GeminiUsage.raiseTotal {
    promptTokenCount := overlay current.promptTokenCount incoming.promptTokenCount
    toolUsePromptTokenCount :=
      overlay current.toolUsePromptTokenCount incoming.toolUsePromptTokenCount
    candidatesTokenCount := overlay current.candidatesTokenCount incoming.candidatesTokenCount
    thoughtsTokenCount :=
      if incoming.candidatesTokenCount > 0 then incoming.thoughtsTokenCount
      else overlay current.thoughtsTokenCount incoming.thoughtsTokenCount
    totalTokenCount := overlay current.totalTokenCount incoming.totalTokenCount
    cachedContentTokenCount :=
      overlay current.cachedContentTokenCount incoming.cachedContentTokenCount
    promptTokensDetails :=
      mergeGeminiTokenDetails current.promptTokensDetails incoming.promptTokensDetails
    toolUsePromptTokensDetails :=
      mergeGeminiTokenDetails current.toolUsePromptTokensDetails
        incoming.toolUsePromptTokensDetails
    candidatesTokensDetails :=
      mergeGeminiTokenDetails current.candidatesTokensDetails incoming.candidatesTokensDetails }

/-! ### Payloads -/

structure BillingUsage where
  source : String := ""
  semantic : String := ""
  estimated : Bool := false
  openAIUsage : Option Usage := none
  claudeUsage : Option ClaudeUsage := none
  geminiUsageMetadata : Option GeminiUsage := none
deriving DecidableEq, Repr

def compatible (current incoming : String) : Bool :=
  current = "" || incoming = "" || equalFold current incoming

def sameBillingUsageDialect (current incoming : BillingUsage) : Bool :=
  compatible current.source incoming.source && compatible current.semantic incoming.semantic &&
    (current.openAIUsage.isSome && incoming.openAIUsage.isSome ||
      current.claudeUsage.isSome && incoming.claudeUsage.isSome ||
      current.geminiUsageMetadata.isSome && incoming.geminiUsageMetadata.isSome)

/-- `MergeBillingUsageNonZero`; the first payload is taken as it is. -/
def mergeBillingUsage (current : Option BillingUsage) (incoming : BillingUsage) : BillingUsage :=
  match current with
  | none => incoming
  | some current =>
    if sameBillingUsageDialect current incoming then
      let merged := { current with
        source := overlayText current.source incoming.source
        semantic := overlayText current.semantic incoming.semantic
        estimated := current.estimated || incoming.estimated }
      match current.openAIUsage, incoming.openAIUsage with
      | some usage, some new => { merged with openAIUsage := some (mergeUsage usage new) }
      | _, _ =>
        match current.claudeUsage, incoming.claudeUsage with
        | some usage, some new =>
          { merged with claudeUsage := some (mergeClaudeUsage usage new) }
        | _, _ =>
          match current.geminiUsageMetadata, incoming.geminiUsageMetadata with
          | some usage, some new =>
            { merged with geminiUsageMetadata := some (mergeGeminiUsage usage new) }
          | _, _ => merged
    else { incoming with estimated := current.estimated || incoming.estimated }

/-! ### What is claimed of them -/

/-- The last of the counts that is not zero. -/
def lastNonZero (counts : List Int) : Int := (counts.reverse.find? (· ≠ 0)).getD 0

/-- The last of the counts that is there, be it zero. -/
def lastReported (counts : List (Option Int)) : Option Int := counts.reverse.findSome? id

inductive InputCount where
  | cachedTokens | cachedCreationTokens | cacheWriteTokens | textTokens | audioTokens | imageTokens
deriving DecidableEq, Repr

def InputTokenDetails.count (d : InputTokenDetails) : InputCount → Int
  | .cachedTokens => d.cachedTokens
  | .cachedCreationTokens => d.cachedCreationTokens
  | .cacheWriteTokens => d.cacheWriteTokens
  | .textTokens => d.textTokens
  | .audioTokens => d.audioTokens
  | .imageTokens => d.imageTokens

/-- The counts of a usage, but for its total. -/
inductive UsageCount where
  | promptTokens | completionTokens | promptCacheHitTokens | inputTokens | outputTokens
  | claudeCacheCreation5mTokens | claudeCacheCreation1hTokens
  | promptTokensDetails (count : InputCount)
  | inputTokensDetails (count : InputCount)
  | outputText | outputAudio | outputImage | reasoningTokens
deriving DecidableEq, Repr

def Usage.count (u : Usage) : UsageCount → Int
  | .promptTokens => u.promptTokens
  | .completionTokens => u.completionTokens
  | .promptCacheHitTokens => u.promptCacheHitTokens
  | .inputTokens => u.inputTokens
  | .outputTokens => u.outputTokens
  | .claudeCacheCreation5mTokens => u.claudeCacheCreation5mTokens
  | .claudeCacheCreation1hTokens => u.claudeCacheCreation1hTokens
  | .promptTokensDetails count => u.promptTokensDetails.count count
  | .inputTokensDetails count => (u.inputTokensDetails.getD {}).count count
  | .outputText => u.completionTokenDetails.textTokens
  | .outputAudio => u.completionTokenDetails.audioTokens
  | .outputImage => u.completionTokenDetails.imageTokens
  | .reasoningTokens => u.completionTokenDetails.reasoningTokens

inductive CachedCount where
  | text | image | audio
deriving DecidableEq, Repr

def CachedTokenDetails.count (d : CachedTokenDetails) : CachedCount → Option Int
  | .text => d.textTokens
  | .image => d.imageTokens
  | .audio => d.audioTokens

/-- The optional counts of the cached tokens, in the details of the prompt or of the input. -/
def Usage.cached (u : Usage) (ofInput : Bool) (count : CachedCount) : Option Int :=
  let details := if ofInput then u.inputTokensDetails.getD {} else u.promptTokensDetails
  (details.cachedTokensDetails.getD {}).count count

def Usage.Nonneg (u : Usage) : Prop := ∀ count, 0 ≤ u.count count

/-- The total is at least what went in and came out, where an `int` holds the sum. -/
def Usage.TotalCovers (u : Usage) : Prop :=
  (FitsInt64 (u.promptTokens + u.completionTokens) →
      u.promptTokens + u.completionTokens ≤ u.totalTokens) ∧
    (FitsInt64 (u.inputTokens + u.outputTokens) → u.inputTokens + u.outputTokens ≤ u.totalTokens)

inductive ClaudeCount where
  | inputTokens | cacheCreationInputTokens | cacheReadInputTokens | outputTokens
  | claudeCacheCreation5mTokens | claudeCacheCreation1hTokens
deriving DecidableEq, Repr

def ClaudeUsage.count (u : ClaudeUsage) : ClaudeCount → Int
  | .inputTokens => u.inputTokens
  | .cacheCreationInputTokens => u.cacheCreationInputTokens
  | .cacheReadInputTokens => u.cacheReadInputTokens
  | .outputTokens => u.outputTokens
  | .claudeCacheCreation5mTokens => u.claudeCacheCreation5mTokens
  | .claudeCacheCreation1hTokens => u.claudeCacheCreation1hTokens

structure ClaudeUsage.Plain (u : ClaudeUsage) : Prop where
  count : ∀ count, 0 ≤ u.count count
  noCacheCreation : u.cacheCreation = none

inductive GeminiPart where
  | prompt | toolUsePrompt | candidates
deriving DecidableEq, Repr

def GeminiUsage.details (u : GeminiUsage) : GeminiPart → List GeminiTokensDetails
  | .prompt => u.promptTokensDetails
  | .toolUsePrompt => u.toolUsePromptTokensDetails
  | .candidates => u.candidatesTokensDetails

/-- What the details say of a modality, in all. -/
def modalitySum (modality : String) (details : List GeminiTokensDetails) : Int :=
  ((details.filter fun detail => normalizeGeminiModality detail.modality = modality).map
    (·.tokenCount)).sum

/-- The counts of a Gemini usage, but for its total and the thoughts. -/
inductive GeminiCount where
  | promptTokenCount | toolUsePromptTokenCount | candidatesTokenCount | cachedContentTokenCount
  | modality (part : GeminiPart) (modality : String)
deriving DecidableEq, Repr

def GeminiUsage.count (u : GeminiUsage) : GeminiCount → Int
  | .promptTokenCount => u.promptTokenCount
  | .toolUsePromptTokenCount => u.toolUsePromptTokenCount
  | .candidatesTokenCount => u.candidatesTokenCount
  | .cachedContentTokenCount => u.cachedContentTokenCount
  | .modality part modality => modalitySum modality (u.details part)

/-- The thoughts of the last snapshot that has candidates or thoughts: the two are one report. -/
def lastThoughts (snapshots : List GeminiUsage) : Int :=
  ((snapshots.reverse.find? fun u =>
    u.candidatesTokenCount ≠ 0 || u.thoughtsTokenCount ≠ 0).map (·.thoughtsTokenCount)).getD 0

def GeminiUsage.TotalCovers (u : GeminiUsage) : Prop := FitsInt64 u.sum → u.sum ≤ u.totalTokenCount

structure GeminiUsage.Nonneg (u : GeminiUsage) : Prop where
  promptTokenCount : 0 ≤ u.promptTokenCount
  toolUsePromptTokenCount : 0 ≤ u.toolUsePromptTokenCount
  candidatesTokenCount : 0 ≤ u.candidatesTokenCount
  thoughtsTokenCount : 0 ≤ u.thoughtsTokenCount
  cachedContentTokenCount : 0 ≤ u.cachedContentTokenCount
  details : ∀ part, ∀ detail ∈ u.details part, 0 ≤ detail.tokenCount

inductive Dialect where
  | openAI | claude | gemini
deriving DecidableEq, Repr

/-- One payload, of one dialect; a source or a semantic that is not given fits any. -/
structure BillingUsage.Of (dialect : Dialect) (source semantic : String) (b : BillingUsage) :
    Prop where
  source : b.source = "" ∨ equalFold b.source source = true
  semantic : b.semantic = "" ∨ equalFold b.semantic semantic = true
  openAIUsage : b.openAIUsage.isSome = decide (dialect = .openAI)
  claudeUsage : b.claudeUsage.isSome = decide (dialect = .claude)
  geminiUsageMetadata : b.geminiUsageMetadata.isSome = decide (dialect = .gemini)

def mergeBillingUsages (first : BillingUsage) (rest : List BillingUsage) : BillingUsage :=
  rest.foldl (fun current incoming => mergeBillingUsage (some current) incoming) first

end JulongApi.UsageMerge
