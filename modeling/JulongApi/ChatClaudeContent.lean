/-
What of the chunks of a chat the Claude stream delivers.

A client puts together the text, the thinking and the input of each tool block from the deltas.
They are to be the content, the reasoning and the arguments of the chunks' first choice.  A tool of
the chat is an index that has received a name; it has a block of its own, which is started under
that name.
-/
import JulongApi.ChatClaude

namespace JulongApi.ChatClaude

open ClaudeStream

open ResponsesStream (ToolCall Choice)

/-! ### What the client puts together -/

def eventText : ClaudeEvent → String
  | .contentBlockDelta _ (.text text) => text
  | _ => ""

def eventThinking : ClaudeEvent → String
  | .contentBlockDelta _ (.thinking thinking) => thinking
  | _ => ""

def eventInput (index : Nat) : ClaudeEvent → String
  | .contentBlockDelta i (.inputJson partialJson) => if i = index then partialJson else ""
  | _ => ""

def textOf (events : List ClaudeEvent) : String := String.join (events.map eventText)

def thinkingOf (events : List ClaudeEvent) : String := String.join (events.map eventThinking)

def inputOf (events : List ClaudeEvent) (index : Nat) : String :=
  String.join (events.map (eventInput index))

/-! ### What the chunks say -/

def Chunk.text (chunk : Chunk) : String :=
  match chunk.choices with
  | [] => ""
  | choice :: _ => choice.delta.getContentString

def Chunk.thinking (chunk : Chunk) : String :=
  match chunk.choices with
  | [] => ""
  | choice :: _ => choice.delta.getReasoningContent

/-- Tool calls with their indexes in the chat, by default their places in the chunk. -/
def indexed (toolCalls : List ToolCall) : List (Int × ToolCall) :=
  toolCalls.zipIdx.map fun call => (call.1.index.getD call.2, call.1)

def Chunk.calls (chunk : Chunk) : List (Int × ToolCall) :=
  match chunk.choices with
  | [] => []
  | choice :: _ => indexed choice.delta.toolCalls

/-- The first name that an index has received. -/
def nameOf (index : Int) (calls : List (Int × ToolCall)) : String :=
  calls.foldl (fun name call =>
    if call.1 = index ∧ name = "" then trimSpace call.2.name else name) ""

def argumentsOf (index : Int) (calls : List (Int × ToolCall)) : String :=
  String.join (calls.map fun call => if call.1 = index then call.2.arguments else "")

/-- The input of a block that has been started under the name of an index is its arguments. -/
def Settled (events : List ClaudeEvent) (calls : List (Int × ToolCall)) (index : Int)
    (block : Nat) : Prop :=
  nameOf index calls ≠ "" →
    (∃ id, .contentBlockStart block (.toolUse id (nameOf index calls)) ∈ events) ∧
      inputOf events block = argumentsOf index calls

/-- Each index with a name has a block of its own. -/
def ToolsSettled (events : List ClaudeEvent) (calls : List (Int × ToolCall)) : Prop :=
  ∃ block : Int → Nat,
    (∀ i j, nameOf i calls ≠ "" → nameOf j calls ≠ "" → block i = block j → i = j) ∧
      ∀ index, Settled events calls index (block index)

structure Delivered (chunks : List Chunk) (events : List ClaudeEvent) : Prop where
  text : textOf events = String.join (chunks.map Chunk.text)
  thinking : thinkingOf events = String.join (chunks.map Chunk.thinking)
  tools : ToolsSettled events (chunks.flatMap Chunk.calls)

/-! ### When it is delivered -/

/-- A stream with what the chunks have said so far. -/
structure Ledger where
  state : ConvertInfo
  text : String
  thinking : String
  calls : List (Int × ToolCall)

def Ledger.new : Ledger := ⟨.new, "", "", []⟩

def Part.text : Part → String
  | .content text => text
  | _ => ""

def Part.thinking : Part → String
  | .reasoning text => text
  | _ => ""

def Part.calls : Part → List (Int × ToolCall)
  | .toolCalls first rest => indexed (first :: rest)
  | _ => []

def Ledger.after (codec : Codec) (l : Ledger) (part : Part) : Ledger where
  state := l.state.part codec part
  text := l.text ++ part.text
  thinking := l.thinking ++ part.thinking
  calls := l.calls ++ part.calls

def Ledger.step (codec : Codec) (l : Ledger) (part : Part) : Option Ledger :=
  some (l.after codec part)

def Ledger.call (l : Ledger) (call : Int × ToolCall) : Ledger :=
  { l with state := l.state.toolCall call.1 call.2, calls := l.calls ++ [call] }

def Ledger.callStep (l : Ledger) (call : Int × ToolCall) : Option Ledger := some (l.call call)

def Seen (index : Int) (calls : List (Int × ToolCall)) : Prop := ∃ call ∈ calls, call.1 = index

instance (index : Int) (calls : List (Int × ToolCall)) : Decidable (Seen index calls) :=
  inferInstanceAs (Decidable (∃ call ∈ calls, call.1 = index))

/-- A call with an index that has been used finds the tool of that index in the row, and a call
with a new index finds no tool. -/
def Ledger.CallFits (l : Ledger) (call : Int × ToolCall) : Prop :=
  (Seen call.1 l.calls →
    l.state.toolCallByIndex.lookup call.1 ≠ none ∧
      (l.state.findTool call.1 (trimSpace call.2.id)).map Prod.fst =
        l.state.toolCallByIndex.lookup call.1) ∧
  (¬Seen call.1 l.calls → l.state.findTool call.1 (trimSpace call.2.id) = none)

instance (l : Ledger) (call : Int × ToolCall) : Decidable (l.CallFits call) := instDecidableAnd

/-- Nothing comes after the end of the message, and the tool calls find their tools. -/
def Ledger.Fits (codec : Codec) (l : Ledger) (part : Part) : Prop :=
  match part with
  | .content text | .reasoning text => l.state.done = true → text = ""
  | .toolCalls first rest =>
    if l.state.done then
      ∀ call ∈ first :: rest, trimSpace call.name = "" ∧ call.arguments = ""
    else
      Machine.Meets Ledger.callStep Ledger.CallFits { l with state := l.state.openTools codec }
        (indexed (first :: rest))
  | .start _ | .usageOnly _ | .finishReason _ | .citations _ | .finish _ | .finalize => True

instance (codec : Codec) (l : Ledger) : ∀ part : Part, Decidable (l.Fits codec part)
  | .content text | .reasoning text =>
    inferInstanceAs (Decidable (l.state.done = true → text = ""))
  | .toolCalls first rest =>
    inferInstanceAs (Decidable (if l.state.done then
      ∀ call ∈ first :: rest, trimSpace call.name = "" ∧ call.arguments = ""
    else
      Machine.Meets Ledger.callStep Ledger.CallFits { l with state := l.state.openTools codec }
        (indexed (first :: rest))))
  | .start _ | .usageOnly _ | .finishReason _ | .citations _ | .finish _ | .finalize => isTrue trivial

/-- A chunk with tool calls has no text and no reasoning. -/
def Chunk.Unmixed (chunk : Chunk) : Prop :=
  chunk.calls ≠ [] → chunk.text = "" ∧ chunk.thinking = ""

instance (chunk : Chunk) : Decidable chunk.Unmixed :=
  inferInstanceAs (Decidable (_ → _ ∧ _))

end JulongApi.ChatClaude
