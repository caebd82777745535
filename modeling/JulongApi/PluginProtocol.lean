/-
The Responses stream of a plugin task: `PluginResponsesMachine` of `relay/plugin_protocol.go`.

A call returns its events, or its error, together with the machine as it leaves it.  Lengths are
counted in bytes.  Of the limits those are kept that the machine looks at; `background`, which only
`PendingResponse` reads, is left out.
-/
import JulongApi.Strings

namespace JulongApi.PluginProtocol

structure PluginProtocolLimits where
  maxEventBytes : Int
  maxOutputs : Int
  maxTotalOutputBytes : Int
  maxMetadataValueBytes : Int
deriving DecidableEq, Repr

def defaultPluginProtocolLimits : PluginProtocolLimits where
  maxEventBytes := 32 * 1024
  maxOutputs := 64
  maxTotalOutputBytes := 1024 * 1024
  maxMetadataValueBytes := 512

def PluginProtocolLimits.withDefaults (l : PluginProtocolLimits) : PluginProtocolLimits :=
  let defaults := defaultPluginProtocolLimits
  { maxEventBytes := if l.maxEventBytes ≤ 0 then defaults.maxEventBytes else l.maxEventBytes
    maxOutputs := if l.maxOutputs ≤ 0 then defaults.maxOutputs else l.maxOutputs
    maxTotalOutputBytes :=
      if l.maxTotalOutputBytes ≤ 0 then defaults.maxTotalOutputBytes else l.maxTotalOutputBytes
    maxMetadataValueBytes :=
      if l.maxMetadataValueBytes ≤ 0 then defaults.maxMetadataValueBytes
      else l.maxMetadataValueBytes }

inductive SemanticType where
  | progress
  | output
  | error
  | other (text : String)
deriving DecidableEq, Repr

/-- `ProtocolSemanticEvent`; `data` is raw JSON. -/
structure ProtocolSemanticEvent where
  type : SemanticType
  progress : Option Float := none
  message : Option String := none
  data : String := ""

structure ProtocolEventResult where
  events : List ProtocolSemanticEvent
  done : Bool := false

/-- What the code does with JSON and with numbers. -/
structure Codec where
  /-- whether `common.GetJsonType` gives `string` -/
  isJsonString : String → Bool
  /-- `common.Unmarshal` into a string -/
  unmarshalString : String → Option String
  /-- `common.Unmarshal` into a value, and `common.Marshal` of it -/
  remarshal : String → Option String
  /-- `strconv.FormatFloat(progress, 'f', -1, 64)` -/
  formatFloat : Float → String
  /-- the format `%q` -/
  quote : String → String

/-! ### The events -/

inductive ResponseStatus where
  | queued
  | inProgress
  | completed
  | failed
  | incomplete
deriving DecidableEq, Repr

/-- `dto.PluginResponsesContent`. -/
structure Content where
  id : String
  type : String := "output_text"
  text : String
  annotations : List String := []
  logprobs : List String := []
deriving DecidableEq, Repr

/-- `dto.PluginResponsesOutput`. -/
structure Output where
  id : String
  type : String := "message"
  status : ResponseStatus
  role : String := "assistant"
  content : List Content
deriving DecidableEq, Repr

/-- The metadata of a task, by its keys. -/
structure Metadata where
  taskId : String
  taskStatus : ResponseStatus
  retrievalPath : String
  taskProgress : Option String := none
  taskMessage : Option String := none
deriving DecidableEq, Repr

/-- `dto.PluginResponsesUsage`. -/
structure Usage where
  inputTokens : Nat := 0
  cachedTokens : Nat := 0
  outputTokens : Nat := 0
  reasoningTokens : Nat := 0
  totalTokens : Nat := 0
deriving DecidableEq, Repr

/-- `dto.PluginResponsesError`. -/
structure ResponseError where
  code : String
  message : String
deriving DecidableEq, Repr

/-- `dto.PluginResponsesResponse`. -/
structure Response where
  id : String
  object : String := "response"
  createdAt : Int
  status : ResponseStatus
  error : Option ResponseError
  incompleteDetails : Option String := none
  instructions : Option String := none
  model : String
  output : List Output
  parallelToolCalls : Bool := true
  temperature : Nat := 1
  toolChoice : String := "auto"
  tools : List String := []
  topP : Nat := 1
  metadata : Metadata
  usage : Option Usage
deriving DecidableEq, Repr

inductive EventType where
  | created
  | inProgress
  | completed
  | failed
  | incomplete
  | outputItemAdded
  | contentPartAdded
  | outputTextDelta
  | outputTextDone
  | contentPartDone
  | outputItemDone
deriving DecidableEq, Repr

/-- `dto.PluginResponsesStreamEvent`. -/
structure StreamEvent where
  type : EventType
  sequenceNumber : Nat := 0
  response : Option Response := none
  outputIndex : Option Nat := none
  contentIndex : Option Nat := none
  itemID : String := ""
  item : Option Output := none
  part : Option Content := none
  delta : Option String := none
  text : Option String := none
  logprobs : Option (List String) := none
deriving DecidableEq, Repr

/-! ### The machine -/

structure PluginResponsesMachine where
  taskID : String
  responseID : String
  model : String
  createdAt : Int
  limits : PluginProtocolLimits
  nextSequence : Nat
  started : Bool
  terminal : Bool
  status : ResponseStatus
  metadata : Metadata
  outputs : List Output
  totalOutputBytes : Nat
  usage : Option Usage
deriving DecidableEq, Repr

def PluginResponsesMachine.new (taskID model : String) (createdAt : Int)
    (limits : PluginProtocolLimits) : PluginResponsesMachine :=
  let taskID := trimSpace taskID
  let responseID := "resp_" ++ (cutPrefix taskID "task_").getD taskID
  { taskID := taskID
    responseID := responseID
    model := model
    createdAt := createdAt
    limits := limits.withDefaults
    nextSequence := 0
    started := false
    terminal := false
    status := .inProgress
    metadata := ⟨taskID, .queued, "/v1/responses/" ++ responseID, none, none⟩
    outputs := []
    totalOutputBytes := 0
    usage := none }

variable (m : PluginResponsesMachine)

def pluginTaskStatus (taskStatus : String) : ResponseStatus :=
  let status := toUpper (trimSpace taskStatus)
  if status = "SUCCESS" then .completed
  else if status = "FAILURE" then .failed
  else if status = "IN_PROGRESS" then .inProgress
  else .queued

def PluginResponsesMachine.responseSnapshot (error : Option ResponseError) : Response where
  id := m.responseID
  createdAt := m.createdAt
  status := m.status
  error := error
  model := m.model
  output := m.outputs
  metadata := m.metadata
  usage := m.usage

/-- An event gets the next number. -/
def PluginResponsesMachine.event (event : StreamEvent) : StreamEvent × PluginResponsesMachine :=
  ({ event with sequenceNumber := m.nextSequence }, { m with nextSequence := m.nextSequence + 1 })

/-- The same of several events. -/
def PluginResponsesMachine.eventAll :
    List StreamEvent → PluginResponsesMachine → List StreamEvent × PluginResponsesMachine
  | [], m => ([], m)
  | event :: rest, m =>
    let (numbered, m) := m.event event
    let (others, m) := PluginResponsesMachine.eventAll rest m
    (numbered :: others, m)

def PluginResponsesMachine.responseEvent (type : EventType) :
    StreamEvent × PluginResponsesMachine :=
  m.event { type := type, response := some (m.responseSnapshot none) }

def PluginResponsesMachine.progressEvent : StreamEvent × PluginResponsesMachine :=
  m.event {
    type := .inProgress
    response := some { m.responseSnapshot none with output := [] } }

def PluginResponsesMachine.complete : StreamEvent × PluginResponsesMachine :=
  { m with
    status := .completed
    metadata := { m.metadata with taskStatus := .completed }
    usage := some {}
    terminal := true }.responseEvent .completed

def PluginResponsesMachine.incomplete : StreamEvent × PluginResponsesMachine :=
  { m with
    status := .incomplete
    usage := some {}
    terminal := true }.responseEvent .incomplete

def PluginResponsesMachine.fail (code message : String) : StreamEvent × PluginResponsesMachine :=
  let m := { m with status := .failed, terminal := true }
  m.event { type := .failed, response := some (m.responseSnapshot (some ⟨code, message⟩)) }

def PluginResponsesMachine.itemID (outputIndex : Nat) : String :=
  "msg_" ++ m.taskID ++ "_" ++ toString outputIndex

def PluginResponsesMachine.contentID (outputIndex : Nat) : String :=
  "content_" ++ m.taskID ++ "_" ++ toString outputIndex

/-- `newCompletedOutputWithIDs`. -/
def newCompletedOutput (itemID contentID text : String) : Output where
  id := itemID
  status := .completed
  content := [{ id := contentID, text := text }]

/-- The six events of an output. -/
def outputEvents (outputIndex : Nat) (itemID contentID text : String) : List StreamEvent := [
  { type := .outputItemAdded, outputIndex := some outputIndex,
    item := some { id := itemID, status := .inProgress, content := [] } },
  { type := .contentPartAdded, outputIndex := some outputIndex, contentIndex := some 0,
    itemID := itemID, part := some { id := contentID, text := "" } },
  { type := .outputTextDelta, outputIndex := some outputIndex, contentIndex := some 0,
    itemID := itemID, delta := some text, logprobs := some [] },
  { type := .outputTextDone, outputIndex := some outputIndex, contentIndex := some 0,
    itemID := itemID, text := some text, logprobs := some [] },
  { type := .contentPartDone, outputIndex := some outputIndex, contentIndex := some 0,
    itemID := itemID, part := some { id := contentID, text := text } },
  { type := .outputItemDone, outputIndex := some outputIndex,
    item := some (newCompletedOutput itemID contentID text) }]

def PluginResponsesMachine.appendOutput (text : String) :
    List StreamEvent × PluginResponsesMachine :=
  let outputIndex := m.outputs.length
  let itemID := m.itemID outputIndex
  let contentID := m.contentID outputIndex
  PluginResponsesMachine.eventAll (outputEvents outputIndex itemID contentID text)
    { m with
      outputs := m.outputs ++ [newCompletedOutput itemID contentID text]
      totalOutputBytes := m.totalOutputBytes + text.utf8ByteSize }

/-! ### Calls -/

/-- What a call returns, and the machine as it leaves it. -/
abbrev Result (α : Type) := Except String α × PluginResponsesMachine

def PluginResponsesMachine.createdEvent : Result StreamEvent :=
  if m.started then (.error "response.created was already emitted", m)
  else if m.terminal then (.error "response is already terminal", m)
  else
    let (event, m) := { m with started := true }.responseEvent .created
    (.ok event, m)

def pluginOutputText (codec : Codec) (raw : String) : Except String String :=
  if raw = "" then .error "output event data is required"
  else
    let text := if codec.isJsonString raw then codec.unmarshalString raw else codec.remarshal raw
    match text with
    | some text => .ok text
    | none => .error "output event data must be JSON-compatible"

/-- Whether a progress lies outside of 0 to 100. -/
def badProgress (progress : Float) : Bool :=
  progress.isNaN || progress.isInf || decide (progress < 0) || decide (progress > 100)

/-- The first pass over the events: an event is checked; for an output, its text. -/
def checkEvent (codec : Codec) (limits : PluginProtocolLimits) (event : ProtocolSemanticEvent) :
    Except String (Option String) :=
  match event.type with
  | .progress =>
    if event.progress.any badProgress then
      .error "progress event progress must be between 0 and 100"
    else if event.message.any fun message => message.utf8ByteSize > limits.maxMetadataValueBytes then
      .error s!"progress event message exceeds {limits.maxMetadataValueBytes} bytes"
    else .ok none
  | .output =>
    match pluginOutputText codec event.data with
    | .error e => .error e
    | .ok text =>
      if text.utf8ByteSize > limits.maxEventBytes then
        .error s!"output event data exceeds {limits.maxEventBytes} bytes"
      else .ok (some text)
  | .error =>
    if trimSpace (event.message.getD "") = "" then .error "error event message is required"
    else .ok none
  | .other text => .error ("unsupported protocol event type " ++ codec.quote text)

/-- The events with what the first pass has made of them: `outputTexts`. -/
def checkEvents (codec : Codec) (limits : PluginProtocolLimits)
    (events : List ProtocolSemanticEvent) :
    Except String (List (ProtocolSemanticEvent × Option String)) :=
  events.mapM fun event => (checkEvent codec limits event).map fun text => (event, text)

def outputTexts (checked : List (ProtocolSemanticEvent × Option String)) : List String :=
  checked.filterMap (·.2)

def PluginResponsesMachine.setTaskStatus (status : ResponseStatus) : PluginResponsesMachine :=
  { m with metadata := { m.metadata with taskStatus := status } }

/-- What a progress event writes into the metadata. -/
def PluginResponsesMachine.setProgress (codec : Codec) (event : ProtocolSemanticEvent) :
    PluginResponsesMachine :=
  { m with
    metadata := { m.metadata with
      taskProgress := (event.progress.map codec.formatFloat).or m.metadata.taskProgress
      taskMessage := event.message.or m.metadata.taskMessage } }

/-- The second pass: the events of one of the plugin's events. -/
def PluginResponsesMachine.applyEvent (codec : Codec) (event : ProtocolSemanticEvent)
    (text : Option String) : List StreamEvent × PluginResponsesMachine :=
  match event.type with
  | .progress =>
    let m := m.setProgress codec event
    if m.outputs = [] then
      let (event, m) := m.progressEvent
      ([event], m)
    else ([], m)
  | .output => m.appendOutput (text.getD "")
  | .error =>
    let (event, m) := m.fail "server_error" "The task failed."
    ([event], m)
  | .other _ => ([], m)

/-- The end of a tick, by the status of the task. -/
def PluginResponsesMachine.endTick (taskStatus : String) (done : Bool) :
    List StreamEvent × PluginResponsesMachine :=
  let status := toUpper (trimSpace taskStatus)
  if status = "SUCCESS" then
    let (event, m) := m.complete
    ([event], m)
  else if status = "FAILURE" then
    let (event, m) := m.fail "server_error" "The task failed."
    ([event], m)
  else if done then
    let (event, m) := m.incomplete
    ([event], m)
  else ([], m)

/-- The second pass over the events, up to the first error, and the end of the tick. -/
def PluginResponsesMachine.applyEvents (codec : Codec) (taskStatus : String) (done : Bool) :
    List (ProtocolSemanticEvent × Option String) → PluginResponsesMachine →
      List StreamEvent × PluginResponsesMachine
  | [], m => m.endTick taskStatus done
  | (event, text) :: rest, m =>
    let (first, m) := m.applyEvent codec event text
    if event.type = .error then (first, m)
    else
      let (others, m) := PluginResponsesMachine.applyEvents codec taskStatus done rest m
      (first ++ others, m)

def PluginResponsesMachine.applyTick (codec : Codec) (result : ProtocolEventResult)
    (taskStatus : String) : Result (List StreamEvent) :=
  if m.started = false then
    (.error "response.created must be emitted before applying events", m)
  else if m.terminal then (.error "response is already terminal", m)
  else if equalFold (trimSpace taskStatus) "FAILURE" then
    let (event, m) := (m.setTaskStatus .failed).fail "server_error" "The task failed."
    (.ok [event], m)
  else
    match checkEvents codec m.limits result.events with
    | .error e => (.error e, m)
    | .ok checked =>
      let texts := outputTexts checked
      if (m.outputs.length + texts.length : Int) > m.limits.maxOutputs then
        (.error s!"response outputs exceed limit of {m.limits.maxOutputs}", m)
      else if (m.totalOutputBytes + (texts.map String.utf8ByteSize).sum : Int) >
          m.limits.maxTotalOutputBytes then
        (.error ("response output exceeds cumulative limit of " ++
          s!"{m.limits.maxTotalOutputBytes} bytes"), m)
      else
        let (events, m) := PluginResponsesMachine.applyEvents codec taskStatus result.done checked
          (m.setTaskStatus (pluginTaskStatus taskStatus))
        (.ok events, m)

/-- `setPersistedTaskStatus`, of optional arguments. -/
def PluginResponsesMachine.setPersistedTaskStatus (taskStatus : List String) :
    PluginResponsesMachine :=
  match taskStatus with
  | [] => m
  | status :: _ => m.setTaskStatus (pluginTaskStatus status)

def PluginResponsesMachine.failureEvent (taskStatus : List String) : Result StreamEvent :=
  if m.started = false then
    (.error "response.created must be emitted before response.failed", m)
  else if m.terminal then (.error "response is already terminal", m)
  else
    let (event, m) := (m.setPersistedTaskStatus taskStatus).fail "server_error"
      "The task could not be observed."
    (.ok event, m)

def PluginResponsesMachine.timeoutEvent (taskStatus : List String) : Result StreamEvent :=
  if m.started = false then
    (.error "response.created must be emitted before response.incomplete", m)
  else if m.terminal then (.error "response is already terminal", m)
  else
    let (event, m) := (m.setPersistedTaskStatus taskStatus).incomplete
    (.ok event, m)

/-- `FinalFromEvents`; the response stands for the map that `pluginResponseMap` makes of it. -/
def PluginResponsesMachine.finalFromEvents (codec : Codec) (result : ProtocolEventResult)
    (taskStatus : String) : Result Response :=
  if m.started ∨ m.terminal then (.error "response state machine has already started", m)
  else
    let scratch := { PluginResponsesMachine.new m.taskID m.model m.createdAt m.limits with
      started := true }
    match scratch.applyTick codec result taskStatus with
    | (.error e, _) => (.error e, m)
    | (.ok _, scratch) =>
      if scratch.terminal = false then
        (.error "renderEvents did not terminate at terminal task status", m)
      else if scratch.status ≠ .completed then
        (.error "renderEvents reported failure at terminal task status", m)
      else (.ok (scratch.responseSnapshot none), scratch)

inductive Call where
  | createdEvent
  | applyTick (result : ProtocolEventResult) (taskStatus : String)
  | failureEvent (taskStatus : List String)
  | timeoutEvent (taskStatus : List String)

def PluginResponsesMachine.call (codec : Codec) : Call → Result (List StreamEvent)
  | .createdEvent =>
    let (result, m) := m.createdEvent
    (result.map ([·]), m)
  | .applyTick result taskStatus => m.applyTick codec result taskStatus
  | .failureEvent taskStatus =>
    let (result, m) := m.failureEvent taskStatus
    (result.map ([·]), m)
  | .timeoutEvent taskStatus =>
    let (result, m) := m.timeoutEvent taskStatus
    (result.map ([·]), m)

/-! ### Runs -/

/-- A machine, and the events that its calls have returned. -/
structure Session where
  machine : PluginResponsesMachine
  emitted : List StreamEvent

def Session.new (taskID model : String) (createdAt : Int) (limits : PluginProtocolLimits) :
    Session :=
  ⟨.new taskID model createdAt limits, []⟩

def Session.call (codec : Codec) (s : Session) (call : Call) : Session :=
  match s.machine.call codec call with
  | (.ok events, m) => ⟨m, s.emitted ++ events⟩
  | (.error _, m) => ⟨m, s.emitted⟩

end JulongApi.PluginProtocol
