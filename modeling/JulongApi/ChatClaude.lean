/-
Chat chunks as a Claude stream: `StreamResponseOpenAI2Claude` and
`FinalizeStreamResponseOpenAI2Claude` of
`relaykit/relayconvert/internal/oai_chat/to_claude_messages_resp.go`.

The events that the calls return are kept in the state, in the order in which they are returned.
A tool that several maps point to is its position in the list of tools.  Of a usage only matters
that there is one, and whether it counts tokens.
-/
import JulongApi.ClaudeEvent
import JulongApi.ResponsesStream
import JulongApi.Strings

namespace JulongApi.ChatClaude

open ClaudeStream

open ResponsesStream (ToolCall Choice)

structure Usage where
  /-- `dto.HasOpenAIUsageTokens` -/
  hasTokens : Bool
deriving DecidableEq, Repr

/-- `dto.ChatCompletionsStreamResponse`. -/
structure Chunk where
  id : String
  model : String
  choices : List Choice
  usage : Option Usage
deriving DecidableEq, Repr

/-! ### The state -/

inductive LastMessagesType where
  | none
  | text
  | tools
  | thinking
deriving DecidableEq, Repr

/-- `convmeta.ClaudeStreamToolCall`. -/
structure StreamToolCall where
  blockIndex : Nat
  id : String := ""
  name : String := ""
  pendingArguments : String := ""
  started : Bool := false
deriving DecidableEq, Repr

/-- `convmeta.ClaudeConvertInfo`, with the counter of the chunks. -/
structure ConvertInfo where
  lastMessagesType : LastMessagesType
  index : Nat
  /-- whether a usage has been recorded -/
  usage : Bool
  finishReason : String
  done : Bool
  toolCallBaseIndex : Nat
  toolCallMaxIndexOffset : Nat
  toolCalls : List StreamToolCall
  toolCallByIndex : List (Int × Nat)
  toolCallByID : List (String × Nat)
  sendResponseCount : Nat
  /-- what the calls have returned -/
  events : List ClaudeEvent
deriving DecidableEq, Repr

/-- `EnsureClaudeConvertInfo`, before any chunk. -/
def ConvertInfo.new : ConvertInfo where
  lastMessagesType := .none
  index := 0
  usage := false
  finishReason := ""
  done := false
  toolCallBaseIndex := 0
  toolCallMaxIndexOffset := 0
  toolCalls := []
  toolCallByIndex := []
  toolCallByID := []
  sendResponseCount := 0
  events := []

structure Codec where
  /-- `chatAnnotationsToClaude`, of annotations that are not empty -/
  chatAnnotationsToClaude : String → List String
  /-- `kitutil.GetUUID`, for a block -/
  getUUID : Nat → String

def ConvertInfo.emit (s : ConvertInfo) (events : List ClaudeEvent) : ConvertInfo :=
  { s with events := s.events ++ events }

/-- `reasonmap.OpenAIFinishReasonToClaudeStopReason`. -/
def stopReasonOpenAI2Claude (finishReason : String) : String :=
  match finishReason.map toLowerChar with
  | "stop" => "end_turn"
  | "stop_sequence" => "stop_sequence"
  | "length" | "max_tokens" => "max_tokens"
  | "content_filter" => "refusal"
  | "tool_calls" => "tool_use"
  | _ => finishReason

/-! ### The ends of blocks -/

def ConvertInfo.stopOpenBlocks (s : ConvertInfo) : List ClaudeEvent :=
  match s.lastMessagesType with
  | .text | .thinking => [.contentBlockStop s.index]
  | .tools =>
    if s.toolCalls = [] then
      (List.range (s.toolCallMaxIndexOffset + 1)).map fun offset =>
        .contentBlockStop (s.toolCallBaseIndex + offset)
    else
      (s.toolCalls.filter (·.started)).map fun tool => .contentBlockStop tool.blockIndex
  | .none => []

/-- The start of the block of a tool, and the arguments that have been waiting for it. -/
def StreamToolCall.startEvents (tool : StreamToolCall) : List ClaudeEvent :=
  .contentBlockStart tool.blockIndex (.toolUse tool.id tool.name) ::
    if tool.pendingArguments = "" then []
    else [.contentBlockDelta tool.blockIndex (.inputJson tool.pendingArguments)]

def StreamToolCall.start (tool : StreamToolCall) : StreamToolCall :=
  { tool with started := true, pendingArguments := "" }

def StreamToolCall.ensureID (codec : Codec) (tool : StreamToolCall) : StreamToolCall :=
  if tool.id = "" then { tool with id := "toolu_" ++ codec.getUUID tool.blockIndex } else tool

/-- Whether `startPendingToolBlocks` starts the tool. -/
def StreamToolCall.pending (tool : StreamToolCall) : Bool :=
  !tool.started && tool.name != ""

def StreamToolCall.startPending (codec : Codec) (tool : StreamToolCall) : StreamToolCall :=
  if tool.pending then (tool.ensureID codec).start else tool

def StreamToolCall.pendingEvents (codec : Codec) (tool : StreamToolCall) : List ClaudeEvent :=
  if tool.pending then (tool.ensureID codec).startEvents else []

def ConvertInfo.startPendingToolBlocks (codec : Codec) (s : ConvertInfo) : ConvertInfo :=
  if s.lastMessagesType = .tools then
    { s.emit (s.toolCalls.flatMap (StreamToolCall.pendingEvents codec)) with
      toolCalls := s.toolCalls.map (StreamToolCall.startPending codec) }
  else s

def ConvertInfo.appendStopOpenBlocks (codec : Codec) (s : ConvertInfo) : ConvertInfo :=
  let s := s.startPendingToolBlocks codec
  s.emit s.stopOpenBlocks

def ConvertInfo.stopOpenBlocksAndAdvance (codec : Codec) (s : ConvertInfo) : ConvertInfo :=
  if s.lastMessagesType = .none then s
  else
    let s := s.appendStopOpenBlocks codec
    if s.lastMessagesType = .tools then
      { s with
        index := s.toolCallBaseIndex + s.toolCalls.length
        toolCallBaseIndex := 0
        toolCallMaxIndexOffset := 0
        toolCalls := []
        toolCallByIndex := []
        toolCallByID := []
        lastMessagesType := .none }
    else { s with index := s.index + 1, lastMessagesType := .none }

/-! ### Text, thinking and citations -/

/-- Start a block of text or of thinking, unless one is open. -/
def ConvertInfo.openBlock (codec : Codec) (s : ConvertInfo) (type : LastMessagesType)
    (contentBlock : ContentBlock) : ConvertInfo :=
  if s.lastMessagesType = type then s
  else
    let s := s.stopOpenBlocksAndAdvance codec
    { s.emit [.contentBlockStart s.index contentBlock] with lastMessagesType := type }

def ConvertInfo.appendReasoning (codec : Codec) (s : ConvertInfo) (reasoning : String) :
    ConvertInfo :=
  if reasoning = "" then s
  else
    let s := s.openBlock codec .thinking .thinking
    s.emit [.contentBlockDelta s.index (.thinking reasoning)]

def ConvertInfo.appendContent (codec : Codec) (s : ConvertInfo) (textContent : String) :
    ConvertInfo :=
  if textContent = "" then s
  else
    let s := s.openBlock codec .text .text
    s.emit [.contentBlockDelta s.index (.text textContent)]

def Codec.citations (codec : Codec) (raw : String) : List String :=
  if raw = "" then [] else codec.chatAnnotationsToClaude raw

def ConvertInfo.appendCitationDeltas (codec : Codec) (s : ConvertInfo) (raw : String) :
    ConvertInfo :=
  if codec.citations raw = [] then s
  else
    let s := s.openBlock codec .text .text
    s.emit ((codec.citations raw).map fun citation =>
      .contentBlockDelta s.index (.citations citation))

/-! ### Tool calls -/

def ConvertInfo.openTools (codec : Codec) (s : ConvertInfo) : ConvertInfo :=
  if s.lastMessagesType = .tools then s
  else
    let s := s.stopOpenBlocksAndAdvance codec
    { s with
      toolCallBaseIndex := s.index
      toolCallMaxIndexOffset := 0
      toolCalls := []
      toolCallByIndex := []
      toolCallByID := []
      lastMessagesType := .tools }

/-- The tool that is known under the id, or else under the index, unless it has another id. -/
def ConvertInfo.findTool (s : ConvertInfo) (toolIndex : Int) (incomingID : String) :
    Option (Nat × StreamToolCall) :=
  let position :=
    match if incomingID = "" then none else s.toolCallByID.lookup incomingID with
    | some position => some position
    | none => s.toolCallByIndex.lookup toolIndex
  match position.bind fun position => s.toolCalls[position]?.map fun tool => (position, tool) with
  | some (position, tool) =>
    if incomingID ≠ "" ∧ tool.id ≠ "" ∧ tool.id ≠ incomingID then none
    else some (position, tool)
  | none => none

def ConvertInfo.newTool (s : ConvertInfo) : StreamToolCall :=
  { blockIndex := s.toolCallBaseIndex + s.toolCalls.length }

/-- The tool of a call. -/
structure Claim where
  state : ConvertInfo
  position : Nat
  tool : StreamToolCall

/-- Look the tool up, or add a new one at the end. -/
def ConvertInfo.claimTool (s : ConvertInfo) (toolIndex : Int) (incomingID : String) : Claim :=
  match s.findTool toolIndex incomingID with
  | some (position, tool) =>
    { state := { s with toolCallByIndex := (toolIndex, position) :: s.toolCallByIndex }
      position := position
      tool := tool }
  | none =>
    { state := {
        s with
        toolCalls := s.toolCalls ++ [s.newTool]
        toolCallByIndex := (toolIndex, s.toolCalls.length) :: s.toolCallByIndex }
      position := s.toolCalls.length
      tool := s.newTool }

def Claim.recordID (claim : Claim) (incomingID : String) : ConvertInfo :=
  if claim.tool.id = "" ∧ incomingID ≠ "" then
    { claim.state with toolCallByID := (incomingID, claim.position) :: claim.state.toolCallByID }
  else claim.state

def StreamToolCall.take (tool : StreamToolCall) (toolCall : ToolCall) : StreamToolCall :=
  { tool with
    id := if tool.id = "" then trimSpace toolCall.id else tool.id
    name := if tool.name = "" then trimSpace toolCall.name else tool.name
    pendingArguments :=
      if tool.started then tool.pendingArguments
      else tool.pendingArguments ++ toolCall.arguments }

def StreamToolCall.ready (tool : StreamToolCall) : Bool :=
  !tool.started && tool.id != "" && tool.name != ""

/-- The tool after a call, which has been taken over, and what is said of it. -/
def StreamToolCall.advance (tool : StreamToolCall) (toolCall : ToolCall) :
    StreamToolCall × List ClaudeEvent :=
  if tool.ready then (tool.start, tool.startEvents)
  else if tool.started ∧ toolCall.arguments ≠ "" then
    (tool, [.contentBlockDelta tool.blockIndex (.inputJson toolCall.arguments)])
  else (tool, [])

/-- Write a tool back, and what has been said of it. -/
def ConvertInfo.putTool (s : ConvertInfo) (position : Nat)
    (advanced : StreamToolCall × List ClaudeEvent) : ConvertInfo :=
  { s.emit advanced.2 with toolCalls := s.toolCalls.set position advanced.1 }

/-- One turn of the loop over the tool calls. -/
def ConvertInfo.toolCall (s : ConvertInfo) (toolIndex : Int) (toolCall : ToolCall) : ConvertInfo :=
  let incomingID := trimSpace toolCall.id
  let claim := s.claimTool toolIndex incomingID
  (claim.recordID incomingID).putTool claim.position ((claim.tool.take toolCall).advance toolCall)

/-- The same of a call with its place in the chunk. -/
def ConvertInfo.toolCallAt (s : ConvertInfo) (call : ToolCall × Nat) : ConvertInfo :=
  s.toolCall (call.1.index.getD call.2) call.1

def ConvertInfo.appendToolCalls (codec : Codec) (s : ConvertInfo) (toolCalls : List ToolCall) :
    ConvertInfo :=
  let s := toolCalls.zipIdx.foldl ConvertInfo.toolCallAt (s.openTools codec)
  { s with
    toolCallMaxIndexOffset := s.toolCalls.length - 1
    index :=
      if s.toolCalls = [] then s.index else s.toolCallBaseIndex + s.toolCalls.length - 1 }

/-! ### Chunks -/

/-- The side effect of `clientVisibleClaudeStreamUsage`, which returns a usage if one has been
recorded then. -/
def ConvertInfo.recordUsage (s : ConvertInfo) (incoming : Option Usage) : ConvertInfo :=
  { s with usage := s.usage || incoming.isSome }

def ConvertInfo.messageStart (s : ConvertInfo) (chunk : Chunk) : ConvertInfo :=
  if s.sendResponseCount = 1 then
    { s.emit [.messageStart chunk.id chunk.model] with
      usage := s.usage || (chunk.usage.any (·.hasTokens)) }
  else s

def ConvertInfo.finish (codec : Codec) (s : ConvertInfo) (stopReason : String) : ConvertInfo :=
  { (s.appendStopOpenBlocks codec).emit [.messageDelta stopReason, .messageStop] with
    done := true }

/-- The stop reason of a stream that may have ended without a finish reason. -/
def ConvertInfo.stopReason (s : ConvertInfo) : String :=
  if stopReasonOpenAI2Claude s.finishReason = "" then "end_turn"
  else stopReasonOpenAI2Claude s.finishReason

/-- A chunk without choices, which may be the usage at the end. -/
def ConvertInfo.usageOnly (codec : Codec) (s : ConvertInfo) (usage : Option Usage) :
    ConvertInfo :=
  let s := s.recordUsage usage
  if s.usage then s.finish codec s.stopReason else s

/-- The end of a chunk with a finish reason: without a usage the blocks are left open. -/
def ConvertInfo.finishWithUsage (codec : Codec) (s : ConvertInfo) (usage : Option Usage) :
    ConvertInfo :=
  let s := s.recordUsage usage
  if s.usage then s.finish codec (stopReasonOpenAI2Claude s.finishReason) else s

def Choice.reason (choice : Choice) : String := choice.finishReason.getD ""

/-- A chunk with a choice. -/
def ConvertInfo.choice (codec : Codec) (s : ConvertInfo) (choice : Choice)
    (usage : Option Usage) : ConvertInfo :=
  let doneChunk := Choice.reason choice ≠ ""
  let s := if doneChunk then { s with finishReason := Choice.reason choice } else s
  let s :=
    if choice.delta.toolCalls ≠ [] then s.appendToolCalls codec choice.delta.toolCalls
    else
      (s.appendReasoning codec choice.delta.getReasoningContent).appendContent codec
        choice.delta.getContentString
  let s := s.appendCitationDeltas codec choice.delta.annotations
  if doneChunk ∨ s.done then s.finishWithUsage codec usage else s

/-- `StreamResponseOpenAI2Claude`, after `prepareResponseStreamInfo` has counted the chunk. -/
def ConvertInfo.chunk (codec : Codec) (s : ConvertInfo) (chunk : Chunk) : ConvertInfo :=
  let s := { s with sendResponseCount := s.sendResponseCount + 1 }
  if s.done then s
  else
    let s := s.messageStart chunk
    match chunk.choices with
    | [] => s.usageOnly codec chunk.usage
    | choice :: _ => s.choice codec choice chunk.usage

/-- `FinalizeStreamResponseOpenAI2Claude`. -/
def ConvertInfo.finalize (codec : Codec) (s : ConvertInfo) : ConvertInfo :=
  if s.done then s else s.finish codec s.stopReason

/-- The events of a stream of chunks, up to the end. -/
def convert (codec : Codec) (chunks : List Chunk) : List ClaudeEvent :=
  ((chunks.foldl (ConvertInfo.chunk codec) .new).finalize codec).events

/-! ### The parts of a chunk -/

/-- What a chunk is handled as, one after the other, and the end of the stream. -/
inductive Part where
  | start (chunk : Chunk)
  | usageOnly (usage : Option Usage)
  | finishReason (reason : String)
  | toolCalls (first : ToolCall) (rest : List ToolCall)
  | reasoning (text : String)
  | content (text : String)
  | citations (raw : String)
  | finish (usage : Option Usage)
  | finalize
deriving DecidableEq, Repr

def Choice.parts (choice : Choice) (usage : Option Usage) : List Part :=
  (if Choice.reason choice ≠ "" then [.finishReason (Choice.reason choice)] else []) ++
  (match choice.delta.toolCalls with
    | first :: rest => [.toolCalls first rest]
    | [] =>
      [.reasoning choice.delta.getReasoningContent, .content choice.delta.getContentString]) ++
  [.citations choice.delta.annotations] ++
  if Choice.reason choice ≠ "" then [.finish usage] else []

def Chunk.parts (chunk : Chunk) : List Part :=
  .start chunk ::
    match chunk.choices with
    | [] => [.usageOnly chunk.usage]
    | choice :: _ => Choice.parts choice chunk.usage

/-- A part of a stream that is not done. -/
def ConvertInfo.handle (codec : Codec) (s : ConvertInfo) : Part → ConvertInfo
  | .start chunk => s.messageStart chunk
  | .usageOnly usage => s.usageOnly codec usage
  | .finishReason reason => { s with finishReason := reason }
  | .toolCalls first rest => s.appendToolCalls codec (first :: rest)
  | .reasoning text => s.appendReasoning codec text
  | .content text => s.appendContent codec text
  | .citations raw => s.appendCitationDeltas codec raw
  | .finish usage => s.finishWithUsage codec usage
  | .finalize => s.finalize codec

def ConvertInfo.count (s : ConvertInfo) : Part → ConvertInfo
  | .start _ => { s with sendResponseCount := s.sendResponseCount + 1 }
  | _ => s

def ConvertInfo.part (codec : Codec) (s : ConvertInfo) (part : Part) : ConvertInfo :=
  if s.done then s.count part else (s.count part).handle codec part

/-- The parts of a stream of chunks, up to the end. -/
def streamParts (chunks : List Chunk) : List Part := chunks.flatMap Chunk.parts ++ [.finalize]

/-! ### The same conversion -/

section Conversion

variable {codec : Codec} {s : ConvertInfo}

@[simp] theorem done_appendStopOpenBlocks : (s.appendStopOpenBlocks codec).done = s.done := by
  unfold ConvertInfo.appendStopOpenBlocks ConvertInfo.startPendingToolBlocks ConvertInfo.emit
  split <;> rfl

@[simp] theorem done_stopOpenBlocksAndAdvance :
    (s.stopOpenBlocksAndAdvance codec).done = s.done := by
  unfold ConvertInfo.stopOpenBlocksAndAdvance
  dsimp only
  split
  · rfl
  · split <;> exact done_appendStopOpenBlocks

@[simp] theorem done_openBlock {type : LastMessagesType} {contentBlock : ContentBlock} :
    (s.openBlock codec type contentBlock).done = s.done := by
  unfold ConvertInfo.openBlock
  split
  · rfl
  · exact done_stopOpenBlocksAndAdvance

@[simp] theorem done_appendReasoning {text : String} :
    (s.appendReasoning codec text).done = s.done := by
  unfold ConvertInfo.appendReasoning
  split
  · rfl
  · exact done_openBlock

@[simp] theorem done_appendContent {text : String} :
    (s.appendContent codec text).done = s.done := by
  unfold ConvertInfo.appendContent
  split
  · rfl
  · exact done_openBlock

@[simp] theorem done_appendCitationDeltas {raw : String} :
    (s.appendCitationDeltas codec raw).done = s.done := by
  unfold ConvertInfo.appendCitationDeltas
  split
  · rfl
  · exact done_openBlock

theorem done_claimTool (toolIndex : Int) (incomingID : String) :
    (s.claimTool toolIndex incomingID).state.done = s.done := by
  unfold ConvertInfo.claimTool
  split <;> rfl

theorem done_recordID (claim : Claim) (incomingID : String) :
    (claim.recordID incomingID).done = claim.state.done := by
  unfold Claim.recordID
  split <;> rfl

@[simp] theorem done_toolCall (toolIndex : Int) {toolCall : ToolCall} :
    (s.toolCall toolIndex toolCall).done = s.done := by
  unfold ConvertInfo.toolCall
  generalize trimSpace toolCall.id = incomingID
  exact (done_recordID (s.claimTool toolIndex incomingID) incomingID).trans
    (done_claimTool toolIndex incomingID)

theorem done_toolCallAt (call : ToolCall × Nat) : (s.toolCallAt call).done = s.done := by
  unfold ConvertInfo.toolCallAt
  exact done_toolCall _

theorem done_foldl_toolCallAt : ∀ (calls : List (ToolCall × Nat)) (s : ConvertInfo),
    (calls.foldl ConvertInfo.toolCallAt s).done = s.done := by
  intro calls
  induction calls with
  | nil => exact fun s => rfl
  | cons call rest ih =>
    intro s
    rw [List.foldl_cons, ih, done_toolCallAt]

@[simp] theorem done_appendToolCalls {toolCalls : List ToolCall} :
    (s.appendToolCalls codec toolCalls).done = s.done := by
  have hopen : (s.openTools codec).done = s.done := by
    unfold ConvertInfo.openTools
    split
    · rfl
    · exact done_stopOpenBlocksAndAdvance
  exact (done_foldl_toolCallAt toolCalls.zipIdx (s.openTools codec)).trans hopen

@[simp] theorem done_messageStart {chunk : Chunk} : (s.messageStart chunk).done = s.done := by
  unfold ConvertInfo.messageStart
  split <;> rfl

theorem part_of_done (h : s.done = true) (part : Part) : s.part codec part = s.count part :=
  if_pos h

theorem part_of_not_done (h : s.done = false) (part : Part) :
    s.part codec part = (s.count part).handle codec part :=
  if_neg (by rw [h]; exact Bool.false_ne_true)

/-- The parts of a chunk, after its start, leave a stream that is done as it is. -/
theorem foldl_parts_of_done (h : s.done = true) (choice : Choice) (usage : Option Usage) :
    (Choice.parts choice usage).foldl (ConvertInfo.part codec) s = s := by
  have hsame : ∀ parts : List Part, (∀ part ∈ parts, s.count part = s) →
      parts.foldl (ConvertInfo.part codec) s = s := by
    intro parts
    induction parts with
    | nil => exact fun _ => rfl
    | cons part rest ih =>
      intro hparts
      rw [List.foldl_cons, part_of_done h, hparts part (by simp)]
      exact ih fun other hother => hparts other (List.mem_cons_of_mem _ hother)
  refine hsame _ fun part hpart => ?_
  unfold Choice.parts at hpart
  cases part with
  | start chunk =>
    by_cases hreason : Choice.reason choice = "" <;>
      cases hcalls : choice.delta.toolCalls <;> simp [hreason, hcalls] at hpart
  | _ => rfl

theorem foldl_choice_parts (h : s.done = false) (choice : Choice) (usage : Option Usage) :
    (Choice.parts choice usage).foldl (ConvertInfo.part codec) s = s.choice codec choice usage := by
  have hpart : ∀ (t : ConvertInfo) (part : Part), t.done = false → t.count part = t →
      t.part codec part = t.handle codec part := by
    intro t part ht hcount
    rw [part_of_not_done ht, hcount]
  have hfold : ∀ t : ConvertInfo, t.done = false →
      (match choice.delta.toolCalls with
        | first :: rest => [Part.toolCalls first rest]
        | [] => [.reasoning choice.delta.getReasoningContent,
            .content choice.delta.getContentString]).foldl (ConvertInfo.part codec) t =
      if choice.delta.toolCalls ≠ [] then t.appendToolCalls codec choice.delta.toolCalls
      else (t.appendReasoning codec choice.delta.getReasoningContent).appendContent codec
        choice.delta.getContentString := by
    intro t ht
    cases choice.delta.toolCalls with
    | cons first rest =>
      rw [if_pos (List.cons_ne_nil first rest)]
      exact hpart t _ ht rfl
    | nil =>
      rw [if_neg (fun h => h rfl), List.foldl_cons, List.foldl_cons, List.foldl_nil,
        hpart t _ ht rfl]
      exact hpart _ _ (done_appendReasoning.trans ht) rfl
  have hdone : ∀ t : ConvertInfo, t.done = false →
      (if choice.delta.toolCalls ≠ [] then t.appendToolCalls codec choice.delta.toolCalls
      else (t.appendReasoning codec choice.delta.getReasoningContent).appendContent codec
        choice.delta.getContentString).done = false := by
    intro t ht
    by_cases hcalls : choice.delta.toolCalls ≠ []
    · rw [if_pos hcalls, done_appendToolCalls, ht]
    · rw [if_neg hcalls, done_appendContent, done_appendReasoning, ht]
  unfold Choice.parts ConvertInfo.choice
  dsimp only
  by_cases hreason : Choice.reason choice ≠ ""
  · have hset : { s with finishReason := Choice.reason choice }.done = false := h
    have hfirst : s.part codec (.finishReason (Choice.reason choice)) =
        { s with finishReason := Choice.reason choice } := hpart s _ h rfl
    rw [if_pos hreason, if_pos hreason, if_pos hreason, if_pos (Or.inl hreason), List.foldl_append,
      List.foldl_append, List.foldl_append, List.foldl_cons, List.foldl_nil, List.foldl_cons,
      List.foldl_nil, List.foldl_cons, List.foldl_nil, hfirst, hfold _ hset]
    generalize { s with finishReason := Choice.reason choice } = t at hset
    have hthen := hdone t hset
    rw [hpart _ (.citations choice.delta.annotations) hthen rfl]
    exact hpart _ _ (done_appendCitationDeltas.trans hthen) rfl
  · rw [if_neg hreason, if_neg hreason, if_neg hreason, List.append_nil, List.nil_append,
      List.foldl_append, hfold s h, List.foldl_cons, List.foldl_nil, hpart _ _ (hdone s h) rfl]
    have hthen := hdone s h
    generalize (if choice.delta.toolCalls ≠ [] then s.appendToolCalls codec choice.delta.toolCalls
      else (s.appendReasoning codec choice.delta.getReasoningContent).appendContent codec
        choice.delta.getContentString) = t at hthen
    have hnot : ¬(Choice.reason choice ≠ "" ∨
        (t.appendCitationDeltas codec choice.delta.annotations).done = true) := by
      rw [done_appendCitationDeltas, hthen]
      simp [hreason]
    rw [if_neg hnot]
    rfl

theorem foldl_chunk_parts (chunk : Chunk) :
    chunk.parts.foldl (ConvertInfo.part codec) s = s.chunk codec chunk := by
  unfold Chunk.parts ConvertInfo.chunk
  rw [List.foldl_cons]
  by_cases hdone : s.done = true
  · have hcounted : (s.count (.start chunk)).done = true := hdone
    dsimp only
    rw [part_of_done hdone, if_pos hdone]
    cases chunk.choices with
    | nil => exact part_of_done hcounted _
    | cons choice rest => exact foldl_parts_of_done hcounted choice chunk.usage
  · dsimp only
    rw [if_neg hdone]
    rw [Bool.not_eq_true] at hdone
    have hstarted : ((s.count (.start chunk)).messageStart chunk).done = false :=
      done_messageStart.trans hdone
    rw [part_of_not_done hdone]
    show List.foldl _ ((s.count (.start chunk)).messageStart chunk) _ = _
    cases chunk.choices with
    | nil => exact part_of_not_done hstarted _
    | cons choice rest => exact foldl_choice_parts hstarted choice chunk.usage

/-- The conversion part by part is the conversion. -/
theorem foldl_streamParts (chunks : List Chunk) :
    ((streamParts chunks).foldl (ConvertInfo.part codec) .new).events = convert codec chunks := by
  have hchunks : ∀ (chunks : List Chunk) (s : ConvertInfo),
      (chunks.flatMap Chunk.parts).foldl (ConvertInfo.part codec) s =
        chunks.foldl (ConvertInfo.chunk codec) s := by
    intro chunks
    induction chunks with
    | nil => exact fun s => rfl
    | cons chunk rest ih =>
      intro s
      rw [List.flatMap_cons, List.foldl_append, foldl_chunk_parts, List.foldl_cons, ih]
  unfold streamParts convert
  rw [List.foldl_append, hchunks, List.foldl_cons, List.foldl_nil]
  generalize chunks.foldl (ConvertInfo.chunk codec) .new = s
  unfold ConvertInfo.part ConvertInfo.finalize
  cases hdone : s.done with
  | true => rfl
  | false =>
    show (s.finalize codec).events = _
    unfold ConvertInfo.finalize
    rw [hdone]

end Conversion

end JulongApi.ChatClaude
