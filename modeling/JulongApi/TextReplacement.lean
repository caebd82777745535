/-
The text replacements of a channel: `Apply` of `relaykit/dto/text_replacement.go` and
`relay/common/text_replacement.go`.

A body is the value that it encodes; the order of fields, which encoding changes, is kept.  What
`float64` does to a number is a parameter.
-/
import JulongApi.Lib.JsonTree
import JulongApi.Lib.Replace
import JulongApi.Strings

namespace JulongApi.TextReplacement

open JsonTree

structure TextReplacementRule where
  fromText : String
  toText : String
deriving DecidableEq, Repr

structure TextReplacementConfig where
  request : List TextReplacementRule
  response : List TextReplacementRule
deriving DecidableEq, Repr

def TextReplacementConfig.empty (c : TextReplacementConfig) : Bool :=
  c.request.length == 0 && c.response.length == 0

/-- `strings.ReplaceAll`, for a rule that has a text to look for. -/
def replace (value : String) (rule : TextReplacementRule) : String :=
  if rule.fromText ≠ "" then
    String.ofList (Replace.replaceAll rule.fromText.toList rule.toText.toList value.toList)
  else value

def TextReplacementConfig.apply (c : TextReplacementConfig) (value : String) (response : Bool) :
    String :=
  (if response then c.response else c.request).foldl replace value

def textReplacementKeys : List String :=
  ["content", "input", "input_text", "instructions", "output_text", "parts", "prompt",
    "reasoning_content", "system", "text", "text_delta", "thinking"]

def keyAllowsText (key : String) : Bool := textReplacementKeys.contains (toLower key)

variable {F : Type}

mutual

def rewriteTextValuesInPlace (config : TextReplacementConfig) (response active : Bool) :
    Json F → Json F
  | .object fields => .object (rewriteFields config response active fields)
  | .array items => .array (rewriteItems config response active items)
  | .scalar (.string current) =>
    .scalar (.string (if active then config.apply current response else current))
  | .scalar value => .scalar value

def rewriteItems (config : TextReplacementConfig) (response active : Bool) :
    List (Json F) → List (Json F)
  | [] => []
  | child :: rest =>
    rewriteTextValuesInPlace config response active child ::
      rewriteItems config response active rest

def rewriteFields (config : TextReplacementConfig) (response active : Bool) :
    List (String × Json F) → List (String × Json F)
  | [] => []
  | (key, child) :: rest =>
    (key, rewriteTextValuesInPlace config response (active || keyAllowsText key) child) ::
      rewriteFields config response active rest

end

/-! ### Decoding -/

/-- What a number becomes as a `float64`, if it has one. -/
structure Float64 (F : Type) where
  inRange : F → Bool
  nearest : F → F

mutual

/-- How deep arrays and objects are nested. -/
def depth : Json F → Nat
  | .scalar _ => 0
  | .array items => 1 + itemsDepth items
  | .object fields => 1 + fieldsDepth fields

def itemsDepth : List (Json F) → Nat
  | [] => 0
  | item :: rest => max (depth item) (itemsDepth rest)

def fieldsDepth : List (String × Json F) → Nat
  | [] => 0
  | (_, value) :: rest => max (depth value) (fieldsDepth rest)

end

mutual

/-- A value in variables of type `any`: of the fields of one name a map keeps the last. -/
def decode (nearest : F → F) : Json F → Json F
  | .scalar value => .scalar (value.mapNumber nearest)
  | .array items => .array (decodeItems nearest items)
  | .object fields => .object ((decodeFields nearest fields).pwFilter fun a b => a.1 ≠ b.1)

def decodeItems (nearest : F → F) : List (Json F) → List (Json F)
  | [] => []
  | item :: rest => decode nearest item :: decodeItems nearest rest

def decodeFields (nearest : F → F) : List (String × Json F) → List (String × Json F)
  | [] => []
  | (name, value) :: rest => (name, decode nearest value) :: decodeFields nearest rest

end

/-- The limit of `encoding/json`. -/
def maxNestingDepth : Nat := 10000

def unmarshal (float : Float64 F) (data : Json F) : Option (Json F) :=
  if depth data ≤ maxNestingDepth ∧ data.allNumbers float.inRange then
    some (decode float.nearest data)
  else none

def applyTextReplacementsJSON (float : Float64 F) (data : Json F) (config : TextReplacementConfig)
    (response : Bool) : Json F :=
  if config.empty then data
  else
    match unmarshal float data with
    | none => data
    | some value => rewriteTextValuesInPlace config response false value

/-! ### What a reader sees -/

mutual

/-- All of a document but its text, which is in the strings whose nearest key is that of a text
field. -/
def skeleton (isText : Bool) : Json F → Json F
  | .object fields => .object (skeletonFields fields)
  | .array items => .array (skeletonItems isText items)
  | .scalar (.string value) => .scalar (.string (if isText then "" else value))
  | .scalar value => .scalar value

def skeletonItems (isText : Bool) : List (Json F) → List (Json F)
  | [] => []
  | item :: rest => skeleton isText item :: skeletonItems isText rest

def skeletonFields : List (String × Json F) → List (String × Json F)
  | [] => []
  | (key, value) :: rest => (key, skeleton (keyAllowsText key) value) :: skeletonFields rest

end

/-- An answer, in the part `delta` of an event of a stream or in the part `message` of a body. -/
def answer (part content : String) : Json F :=
  .object [("choices", .array [.object [(part, .object [("content", .scalar (.string content))])]])]

def content : Json F → String
  | .object [(_, .array [.object [(_, .object [(_, .scalar (.string text))])]])] => text
  | _ => ""

/-- The text of an answer that reaches the client. -/
def delivered (float : Float64 F) (config : TextReplacementConfig) (part text : String) : String :=
  content (applyTextReplacementsJSON float (answer part text) config true)

end JulongApi.TextReplacement
