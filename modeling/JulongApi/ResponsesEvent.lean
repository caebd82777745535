/-
The events of a Responses stream as they come in: `dto.ResponsesStreamResponse`, as far as the
converters of `relaykit/relayconvert/internal/oai_responses` read it.

Raw JSON is kept as its text; arguments are kept in the form that `ArgumentsString` gives them.
-/
import JulongApi.Strings

namespace JulongApi.ResponsesEvent

inductive OutputType where
  | message
  | reasoning
  | functionCall
  | customToolCall
  | other (text : String)
deriving DecidableEq, Repr

/-- `dto.ResponsesOutputContent`. -/
structure OutputContent where
  /-- whether the type is `output_text` -/
  outputText : Bool
  text : String
  annotations : List String := []
deriving DecidableEq, Repr

/-- `dto.ResponsesOutput`. -/
structure Output where
  type : OutputType
  id : String := ""
  role : String := ""
  content : List OutputContent := []
  /-- the texts of the summary parts -/
  summary : List String := []
  callId : String := ""
  name : String := ""
  arguments : String := ""
deriving DecidableEq, Repr

/-- `dto.OpenAIResponsesResponse`. -/
structure Response where
  id : String := ""
  model : String := ""
  createdAt : Int := 0
  /-- what `responseStatusString` makes of it -/
  status : String := ""
  /-- the reason of the `incomplete_details` -/
  incompleteReason : Option String := none
  output : List Output := []
deriving DecidableEq, Repr

inductive EventType where
  | created
  | completed
  | done
  | incomplete
  | failed
  | error
  | outputTextDelta
  | outputTextDone
  | outputTextAnnotationAdded
  | outputItemAdded
  | outputItemDone
  | functionArgsDelta
  | functionArgsDone
  | customToolInputDelta
  | customToolInputDone
  | reasoningSummaryDelta
  | reasoningSummaryDone
  | reasoningTextDelta
  | reasoningTextDone
  | other (text : String)
deriving DecidableEq, Repr

/-- `dto.ResponsesStreamResponse`. -/
structure Event where
  type : EventType
  response : Option Response := none
  message : String := ""
  delta : String := ""
  arguments : Option String := none
  text : Option String := none
  item : Option Output := none
  annotation : String := ""
  outputIndex : Option Int := none
  itemID : String := ""
deriving DecidableEq, Repr

/-- `responseStreamEventItemID`. -/
def Event.eventItemID (event : Event) : String :=
  match event.item with
  | some item => if trimSpace item.id = "" then trimSpace event.itemID else trimSpace item.id
  | none => trimSpace event.itemID

/-- `ResponsesFinishReasonFromStatus`. -/
def finishReasonFromStatus : Option Response → Option String
  | none => none
  | some response =>
    if response.status ≠ "incomplete" then none
    else if trimSpace (response.incompleteReason.getD "") = "content_filter" then
      some "content_filter"
    else some "length"

/-- How many of the first two characters are line feeds. -/
def leadingNewlines : List Char → Nat
  | '\n' :: '\n' :: _ => 2
  | '\n' :: _ => 1
  | _ => 0

def appendSeparatedText (current text : String) : String :=
  if text = "" then current
  else if current = "" then text
  else
    let missing := 2 - leadingNewlines current.toList.reverse - leadingNewlines text.toList
    current ++ String.ofList (List.replicate missing '\n') ++ text

def reasoningOutputText (output : Output) : String :=
  if output.content.any fun part => part.text != "" then
    (output.content.map (·.text)).foldl appendSeparatedText ""
  else output.summary.foldl appendSeparatedText ""

end JulongApi.ResponsesEvent
