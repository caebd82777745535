/-
The chunks of a chat stream, as the converters of `relaykit/relayconvert/internal/oai_chat` read
them: the choices of `dto.ChatCompletionsStreamResponse`.

Raw JSON is kept as its text, and a raw message that encodes a string as that string.
-/
namespace JulongApi.ResponsesStream

/-! ### Function calls -/

/-- `dto.ToolCallResponse`. -/
structure ToolCall where
  index : Option Int
  id : String
  name : String
  arguments : String
deriving DecidableEq, Repr

/-! ### Chunks -/

structure Delta where
  content : Option String
  reasoningContent : Option String
  reasoning : Option String
  toolCalls : List ToolCall
  annotations : String
deriving DecidableEq, Repr

def Delta.getContentString (d : Delta) : String := d.content.getD ""

def Delta.getReasoningContent (d : Delta) : String :=
  match d.reasoningContent with
  | some text => text
  | none => d.reasoning.getD ""

structure Choice where
  delta : Delta
  finishReason : Option String
deriving DecidableEq, Repr

end JulongApi.ResponsesStream
