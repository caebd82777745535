/-
Responses events as a Claude stream: `ResponsesToClaudeStreamState` of
`relaykit/relayconvert/internal/oai_responses/to_claude_messages_stream_resp.go`.

The events that the calls return are kept in the state, in the order in which they are returned; a
call that fails returns none, and leaves the state as it is then.  A block that several maps point
to is its position in the list of blocks.  Lengths are counted in characters.  Usage and the text
for its estimation are left out.
-/
import JulongApi.ClaudeEvent
import JulongApi.ResponsesEvent

namespace JulongApi.ResponsesClaude

open ClaudeStream

open ResponsesEvent (Event Output Response reasoningOutputText finishReasonFromStatus)

/-! ### The state -/

/-- `responsesClaudeStreamBlock`. -/
structure StreamBlock where
  index : Nat
  kind : ContentKind
  itemID : String := ""
  callID : String := ""
  name : String := ""
  started : Bool := false
  stopped : Bool := false
  value : String := ""
  sentBytes : Nat := 0
  annotationCount : Nat := 0
  needsReasoningBreak : Bool := false
deriving DecidableEq, Repr

structure StreamState where
  id : String
  model : String
  sentMessageStart : Bool
  done : Bool
  sawToolCall : Bool
  nextBlockIndex : Nat
  blocks : List StreamBlock
  byOutputIndex : List (Int × Nat)
  byItemID : List (String × Nat)
  lastByKind : List (ContentKind × Nat)
  /-- what the calls have returned -/
  events : List ClaudeEvent
deriving DecidableEq, Repr

/-- `NewResponsesToClaudeStreamState`. -/
def StreamState.new (id model : String) : StreamState where
  id := trimSpace id
  model := trimSpace model
  sentMessageStart := false
  done := false
  sawToolCall := false
  nextBlockIndex := 0
  blocks := []
  byOutputIndex := []
  byItemID := []
  lastByKind := []
  events := []

/-- What the code does with JSON. -/
structure Codec where
  /-- whether `kitutil.Unmarshal` takes a raw annotation -/
  validAnnotation : String → Bool
  /-- `responsesAnnotationsToClaude`, of annotations and the text they are about -/
  annotationsToClaude : List String → String → List String

inductive StreamError where
  /-- `Responses output item changed from %s to %s` -/
  | changedKind (old new : ContentKind)
  /-- `invalid Responses stream annotation: %w` -/
  | annotations
  /-- `responses stream error: %s` -/
  | stream (message : String)
deriving DecidableEq, Repr

/-- The error of a call, and the state that it leaves. -/
structure Failure where
  error : StreamError
  left : StreamState

def StreamState.emit (s : StreamState) (events : List ClaudeEvent) : StreamState :=
  { s with events := s.events ++ events }

def StreamState.modifyBlock (s : StreamState) (position : Nat)
    (f : StreamBlock → StreamBlock) : StreamState :=
  { s with blocks := s.blocks.modify position f }

/-! ### Metadata and blocks -/

def StreamState.applyResponseMetadata (s : StreamState) : Option Response → StreamState
  | none => s
  | some response =>
    { s with
      id := if response.id = "" then s.id else response.id
      model := if response.model = "" then s.model else response.model }

def StreamState.ensureMessageStart (s : StreamState) : StreamState :=
  if s.sentMessageStart then s
  else { s.emit [.messageStart s.id s.model] with sentMessageStart := true }

def StreamState.findBlock (s : StreamState) (event : Event) : Option Nat :=
  match event.outputIndex.bind fun outputIndex => s.byOutputIndex.lookup outputIndex with
  | some position => some position
  | none => if event.eventItemID = "" then none else s.byItemID.lookup event.eventItemID

/-- The last block of a kind, for an event that names no item. -/
def StreamState.lastBlock (s : StreamState) (event : Event) (kind : ContentKind) : Option Nat :=
  if event.outputIndex = none ∧ event.eventItemID = "" then
    (s.lastByKind.lookup kind).filter fun position =>
      s.blocks[position]?.any fun block => !block.stopped
  else none

/-- What a block takes over from the item of an event. -/
def StreamBlock.takeItem (block : StreamBlock) (item : Output) : StreamBlock :=
  { block with
    callID :=
      if trimSpace item.callId ≠ "" then trimSpace item.callId
      else if block.callID = "" then trimSpace item.id
      else block.callID
    name := if trimSpace item.name ≠ "" then trimSpace item.name else block.name }

def StreamBlock.takeEvent (block : StreamBlock) (event : Event) : StreamBlock :=
  let block :=
    if event.eventItemID ≠ "" then { block with itemID := event.eventItemID } else block
  match event.item with
  | none => block
  | some item => block.takeItem item

def StreamState.applyBlockMetadata (s : StreamState) (position : Nat) (event : Event) :
    StreamState :=
  { s.modifyBlock position fun block => block.takeEvent event with
    byOutputIndex :=
      match event.outputIndex with
      | some outputIndex => (outputIndex, position) :: s.byOutputIndex
      | none => s.byOutputIndex
    byItemID :=
      if event.eventItemID ≠ "" then (event.eventItemID, position) :: s.byItemID else s.byItemID }

def StreamState.newBlock (s : StreamState) (kind : ContentKind) : StreamState :=
  { s with
    blocks := s.blocks ++ [{ index := s.nextBlockIndex, kind := kind }]
    nextBlockIndex := s.nextBlockIndex + 1 }

/-- A block that has been found, or else a new one at the end. -/
def StreamState.claimBlock (s : StreamState) (event : Event) (kind : ContentKind) :
    StreamState × Nat :=
  match s.findBlock event with
  | some position => (s, position)
  | none =>
    match s.lastBlock event kind with
    | some position => (s, position)
    | none => (s.newBlock kind, s.blocks.length)

def StreamState.ensureBlock (s : StreamState) (event : Event) (kind : ContentKind) :
    Except Failure (StreamState × Nat) :=
  let (s, position) := s.claimBlock event kind
  match s.blocks[position]? with
  | none => .ok (s, position)
  | some block =>
    if block.kind ≠ kind then .error ⟨.changedKind block.kind kind, s⟩
    else
      let s := s.applyBlockMetadata position event
      .ok ({ s with lastByKind := (kind, position) :: s.lastByKind }, position)

/-! ### The content of blocks -/

/-- The content block of a start; a tool has none as long as it has no name. -/
def StreamBlock.content (block : StreamBlock) : Option ContentBlock :=
  match block.kind with
  | .text => some .text
  | .thinking => some .thinking
  | .toolUse =>
    if block.name = "" then none
    else some (.toolUse (if block.callID = "" then block.itemID else block.callID) block.name)

def StreamState.startBlock (s : StreamState) (position : Nat) : StreamState :=
  match s.blocks[position]? with
  | none => s
  | some block =>
    if block.started ∨ block.stopped then s
    else
      match block.content with
      | none => s
      | some content =>
        let s := { s with sawToolCall := s.sawToolCall || block.kind == ContentKind.toolUse }
        let s := s.ensureMessageStart
        (s.modifyBlock position fun block => { block with started := true }).emit
          [.contentBlockStart block.index content]

/-- The delta of a piece of the value. -/
def StreamBlock.delta (block : StreamBlock) (piece : String) : ContentDelta :=
  match block.kind with
  | .text => .text piece
  | .thinking => .thinking piece
  | .toolUse => .inputJson piece

/-- The second part of `flushBlock`: what of the value has not been sent. -/
def StreamState.sendValue (s : StreamState) (position : Nat) : StreamState :=
  match s.blocks[position]? with
  | none => s
  | some block =>
    if block.started = false ∨ block.value.length ≤ block.sentBytes then s
    else
      let piece := String.ofList (block.value.toList.drop block.sentBytes)
      (s.modifyBlock position fun block => { block with sentBytes := block.value.length }).emit
        [.contentBlockDelta block.index (block.delta piece)]

/-- Whether the block at a position is not stopped. -/
def StreamState.running (s : StreamState) (position : Nat) : Bool :=
  s.blocks[position]?.any fun block => !block.stopped

def StreamState.flushBlock (s : StreamState) (position : Nat) : StreamState :=
  if s.running position then (s.startBlock position).sendValue position else s

def StreamState.appendDelta (s : StreamState) (position : Nat) (delta : String) : StreamState :=
  if s.running position = false ∨ delta = "" then s
  else
    (s.modifyBlock position fun block =>
      { block with value := block.value ++ delta }).flushBlock position

/-- The value of a block of which a final value is known. -/
def StreamBlock.mergeFinalValue (block : StreamBlock) (finalValue : String) : StreamBlock :=
  if block.value = "" then { block with value := finalValue }
  else
    match cutPrefix finalValue block.value with
    | some rest => { block with value := block.value ++ rest }
    | none => block

def StreamState.mergeFinalValue (s : StreamState) (position : Nat) (finalValue : String) :
    StreamState :=
  if s.running position then
    (s.modifyBlock position fun block => block.mergeFinalValue finalValue).flushBlock position
  else s

def StreamState.stopBlock (s : StreamState) (position : Nat) : StreamState :=
  if s.running position then
    let s := (s.flushBlock position).startBlock position
    match s.blocks[position]? with
    | none => s
    | some block =>
      if block.started = false then s
      else
        (s.modifyBlock position fun block => { block with stopped := true }).emit
          [.contentBlockStop block.index]
  else s

/-- The annotations that are new, and how many there are then. -/
def StreamBlock.remaining (block : StreamBlock) (annotations : List String) (snapshot : Bool) :
    List String × Nat :=
  if snapshot then
    (annotations.drop block.annotationCount, max block.annotationCount annotations.length)
  else (annotations, block.annotationCount + annotations.length)

def StreamState.appendAnnotations (codec : Codec) (s : StreamState) (position : Nat)
    (annotations : List String) (snapshot : Bool) : StreamState :=
  match s.blocks[position]? with
  | none => s
  | some block =>
    if block.kind ≠ .text ∨ block.stopped ∨ annotations = [] then s
    else
      let (remaining, count) := block.remaining annotations snapshot
      if remaining = [] then s
      else
        let s := s.modifyBlock position fun block => { block with annotationCount := count }
        let citations := codec.annotationsToClaude remaining block.value
        if citations = [] then s
        else
          (s.startBlock position).emit
            (citations.map fun citation => .contentBlockDelta block.index (.citations citation))

/-! ### Items -/

/-- The kind of the block of an item; other items have none. -/
def itemKind (item : Output) : Option ContentKind :=
  match item.type with
  | .reasoning => some .thinking
  | .message => if item.role ≠ "" ∧ item.role ≠ "assistant" then none else some .text
  | .functionCall | .customToolCall => some .toolUse
  | .other _ => none

def outputText (item : Output) : String :=
  String.join ((item.content.filter (·.outputText)).map (·.text))

def outputAnnotations (item : Output) : List String :=
  (item.content.filter (·.outputText)).flatMap (·.annotations)

/-- What the block of an item takes over from it. -/
def StreamState.mergeItem (codec : Codec) (s : StreamState) (position : Nat) (item : Output)
    (kind : ContentKind) : StreamState :=
  match kind with
  | .thinking => s.mergeFinalValue position (reasoningOutputText item)
  | .text =>
    (s.mergeFinalValue position (outputText item)).appendAnnotations codec position
      (outputAnnotations item) true
  | .toolUse => s.mergeFinalValue position item.arguments

def StreamState.applyOutputItem (codec : Codec) (s : StreamState) (event : Event) (stop : Bool) :
    Except Failure StreamState :=
  match event.item with
  | none => .ok s
  | some item =>
    match itemKind item with
    | none => .ok s
    | some kind =>
      (s.ensureBlock event kind).map fun (s, position) =>
        let s := s.mergeItem codec position item kind
        if stop then s.stopBlock position else s

/-! ### The end -/

/-- The items of a terminal response, each as an event. -/
def snapshotEvents (response : Response) : List Event :=
  response.output.zipIdx.map fun item =>
    { type := .other "", outputIndex := some item.2, itemID := item.1.id, item := some item.1 }

/-- `responsesClaudeStopReason`; the finish reasons here are `length` and `content_filter`. -/
def stopReason (response : Option Response) (sawToolCall : Bool) : String :=
  match finishReasonFromStatus response with
  | some "length" => "max_tokens"
  | some "content_filter" => "refusal"
  | some other => other
  | none => if sawToolCall then "tool_use" else "end_turn"

/-- The last part of `finish`: all blocks are stopped. -/
def StreamState.close (s : StreamState) (response : Option Response) : StreamState :=
  let s := (List.range s.blocks.length).foldl StreamState.stopBlock s
  let s := s.ensureMessageStart
  { s.emit [.messageDelta (stopReason response s.sawToolCall), .messageStop] with done := true }

/-- The first part of `finish`: the items of the response. -/
def StreamState.applySnapshot (codec : Codec) (s : StreamState) (response : Option Response) :
    Except Failure StreamState :=
  let s := s.applyResponseMetadata response
  match response with
  | none => .ok s
  | some response =>
    (snapshotEvents response).foldlM (fun s event => s.applyOutputItem codec event true) s

def StreamState.finish (codec : Codec) (s : StreamState) (response : Option Response) :
    Except Failure StreamState :=
  if s.done then .ok s else (s.applySnapshot codec response).map fun s => s.close response

/-! ### Events -/

/-- `separatedResponsesDelta`. -/
def separatedDelta (delta : String) : String :=
  match delta.toList with
  | '\n' :: '\n' :: _ => delta
  | '\n' :: _ => "\n" ++ delta
  | _ => "\n\n" ++ delta

/-- A delta of reasoning, on a line of its own after another part. -/
def StreamState.reasoningDelta (s : StreamState) (position : Nat) (delta : String) : StreamState :=
  if (s.blocks[position]?.any fun block => block.needsReasoningBreak) ∧ delta ≠ "" then
    (s.modifyBlock position fun block => { block with needsReasoningBreak := false }).appendDelta
      position (separatedDelta delta)
  else s.appendDelta position delta

def StreamState.reasoningDone (s : StreamState) (position : Nat) (text : Option String) :
    StreamState :=
  let s :=
    match text with
    | some text => s.mergeFinalValue position text
    | none => s
  s.modifyBlock position fun block =>
    { block with needsReasoningBreak := block.needsReasoningBreak || block.value != "" }

def StreamState.handle (codec : Codec) (s : StreamState) (event : Event) :
    Except Failure StreamState :=
  let s := s.applyResponseMetadata event.response
  match event.type with
  | .created => .ok s.ensureMessageStart
  | .reasoningSummaryDelta | .reasoningTextDelta =>
    (s.ensureBlock event .thinking).map fun (s, position) => s.reasoningDelta position event.delta
  | .reasoningSummaryDone | .reasoningTextDone =>
    (s.ensureBlock event .thinking).map fun (s, position) => s.reasoningDone position event.text
  | .outputTextDelta =>
    (s.ensureBlock event .text).map fun (s, position) => s.appendDelta position event.delta
  | .outputTextDone =>
    (s.ensureBlock event .text).map fun (s, position) =>
      match event.text with
      | some text => s.mergeFinalValue position text
      | none => s
  | .outputTextAnnotationAdded => do
      let (s, position) ← s.ensureBlock event .text
      if codec.validAnnotation event.annotation then
        .ok (s.appendAnnotations codec position [ event.annotation] false)
      else .error ⟨.annotations, s⟩
  | .outputItemAdded => s.applyOutputItem codec event false
  | .outputItemDone => s.applyOutputItem codec event true
  | .functionArgsDelta | .customToolInputDelta =>
    (s.ensureBlock event .toolUse).map fun (s, position) => s.appendDelta position event.delta
  | .functionArgsDone | .customToolInputDone =>
    (s.ensureBlock event .toolUse).map fun (s, position) =>
      match event.arguments with
      | some arguments => s.mergeFinalValue position arguments
      | none => s
  | .completed | .done | .incomplete => s.finish codec event.response
  | .failed =>
    let message := trimSpace event.message
    .error ⟨.stream (if message = "" then "response.failed" else message), s⟩
  | .error =>
    let message := trimSpace event.message
    .error ⟨.stream (if message = "" then "response.error" else message), s⟩
  | .other _ => .ok s

/-- A call that fails returns no events. -/
def StreamState.settle (s : StreamState) : Except Failure StreamState → StreamState
  | .ok t => t
  | .error failure => { failure.left with events := s.events }

def StreamState.convertChunk (codec : Codec) (s : StreamState) (event : Event) : StreamState :=
  if s.done then s else s.settle (s.handle codec event)

def StreamState.finalize (codec : Codec) (s : StreamState) : StreamState :=
  if s.done then s else s.settle (s.finish codec none)

/-- The Claude stream of the events, up to the end. -/
def convert (codec : Codec) (id model : String) (events : List Event) : List ClaudeEvent :=
  ((events.foldl (StreamState.convertChunk codec) (.new id model)).finalize codec).events

end JulongApi.ResponsesClaude
