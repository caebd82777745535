/-
The operations of an override that go by a path: `resolveOperationPaths` and the modes that delete
or change what a path finds, in `relay/common/override.go`.

A wildcard path is expanded to the paths of all places it matches before the first of them is
touched.  The order in which a merged object's fields are written is left aside.
-/
import JulongApi.Lib.Replace
import JulongApi.Override

namespace JulongApi.Override

open JsonTree

variable {F : Type}

/-! ### Wildcards -/

/-- `lo.Keys` and `sort.Strings`. -/
def sortedKeys (fields : List (String × Json F)) : List String :=
  (fields.map (·.1)).dedup.insertionSort (· ≤ ·)

/-- `collectWildcardPaths`, with the components of the paths, which it joins with dots. -/
def collectWildcardPaths : List String → Json F → List String → List (List String)
  | [], _, pre => [pre]
  | segment :: rest, node, pre =>
    let segment := trimSpace segment
    if segment = "" then []
    else if segment = "*" then
      match node with
      | .object fields =>
        (sortedKeys fields).flatMap fun key =>
          match getField key fields with
          | some child => collectWildcardPaths rest child (pre ++ [key])
          | none => []
      | .array items =>
        (List.range items.length).flatMap fun index =>
          match items[index]? with
          | some child => collectWildcardPaths rest child (pre ++ [toString index])
          | none => []
      | .scalar _ => []
    else
      match node with
      | .object fields =>
        if rest = [] then [pre ++ [segment]]
        else
          match getField segment fields with
          | some next => collectWildcardPaths rest next (pre ++ [segment])
          | none => []
      | .array items =>
        match atoi segment with
        | none => []
        | some index =>
          if index < 0 ∨ (items.length : Int) ≤ index then []
          else if rest = [] then [pre ++ [segment]]
          else
            match items[index.toNat]? with
            | some next => collectWildcardPaths rest next (pre ++ [segment])
            | none => []
      | .scalar _ => []

section Collect

variable {segment : String} {rest : List String}

theorem collect_nil (node : Json F) (pre : List String) :
    collectWildcardPaths [] node pre = [pre] :=
  rfl

theorem collect_of_empty (hempty : trimSpace segment = "") (doc : Json F) (pre : List String) :
    collectWildcardPaths (segment :: rest) doc pre = [] :=
  if_pos hempty

theorem collect_scalar (value : Scalar F) (pre : List String) :
    collectWildcardPaths (segment :: rest) (.scalar value) pre = [] := by
  show (if trimSpace segment = "" then [] else if trimSpace segment = "*" then [] else []) = []
  rw [ite_self, ite_self]

theorem ne_empty_of_star (hstar : trimSpace segment = "*") : trimSpace segment ≠ "" := by
  rw [hstar]
  decide

theorem collect_fields (hstar : trimSpace segment = "*") (fields : List (String × Json F))
    (pre : List String) :
    collectWildcardPaths (segment :: rest) (.object fields) pre
      = (sortedKeys fields).flatMap fun key =>
          match getField key fields with
          | some child => collectWildcardPaths rest child (pre ++ [key])
          | none => [] :=
  (if_neg (ne_empty_of_star hstar)).trans (if_pos hstar)

theorem collect_items (hstar : trimSpace segment = "*") (items : List (Json F))
    (pre : List String) :
    collectWildcardPaths (segment :: rest) (.array items) pre
      = (List.range items.length).flatMap fun index =>
          match items[index]? with
          | some child => collectWildcardPaths rest child (pre ++ [toString index])
          | none => [] :=
  (if_neg (ne_empty_of_star hstar)).trans (if_pos hstar)

theorem collect_field (hempty : trimSpace segment ≠ "") (hstar : trimSpace segment ≠ "*")
    (fields : List (String × Json F)) (pre : List String) :
    collectWildcardPaths (segment :: rest) (.object fields) pre
      = if rest = [] then [pre ++ [trimSpace segment]]
        else
          match getField (trimSpace segment) fields with
          | some next => collectWildcardPaths rest next (pre ++ [trimSpace segment])
          | none => [] :=
  (if_neg hempty).trans (if_neg hstar)

theorem collect_item (hempty : trimSpace segment ≠ "") (hstar : trimSpace segment ≠ "*")
    (items : List (Json F)) (pre : List String) :
    collectWildcardPaths (segment :: rest) (.array items) pre
      = match atoi (trimSpace segment) with
        | none => []
        | some index =>
          if index < 0 ∨ (items.length : Int) ≤ index then []
          else if rest = [] then [pre ++ [trimSpace segment]]
          else
            match items[index.toNat]? with
            | some next => collectWildcardPaths rest next (pre ++ [trimSpace segment])
            | none => [] :=
  (if_neg hempty).trans (if_neg hstar)

end Collect

def PathLibrary.expandWildcardPaths (lib : PathLibrary F) (data : Json F) (path : String) :
    Except OverrideError (List String) :=
  (lib.unmarshal data).map fun root =>
    ((collectWildcardPaths (split path '.') root []).map (".".intercalate ·)).eraseDups

def PathLibrary.resolveOperationPaths (lib : PathLibrary F) (data : Json F) (path : String) :
    Except OverrideError (List String) :=
  if contains path "*" then lib.expandWildcardPaths data path else .ok [path]

/-- An operation by a path: the loop over the paths it is resolved to. -/
def PathLibrary.applyPaths (lib : PathLibrary F)
    (apply : Json F → String → Except OverrideError (Json F)) (data : Json F) (path : String) :
    Except OverrideError (Json F) :=
  match lib.resolveOperationPaths data (lib.processNegativeIndex data path) with
  | .error error => .error error
  | .ok opPaths => opPaths.foldlM apply data

/-! ### Deleting -/

def PathLibrary.deleteValue (lib : PathLibrary F) (data : Json F) (path : String) :
    Except OverrideError (Json F) :=
  if trimSpace path = "" then .ok data else (lib.delete data path).mapError .library

/-- The case `delete` of `applyOperations`. -/
def PathLibrary.applyDelete (lib : PathLibrary F) : Json F → String → Except OverrideError (Json F) :=
  lib.applyPaths lib.deleteValue

/-! ### Changing -/

/-- What a mode writes in the place of what it finds, or nothing where it leaves it. -/
abbrev PathChange (F : Type) := Option (Json F) → Except OverrideError (Option (Json F))

def PathLibrary.changeValue (lib : PathLibrary F) (change : PathChange F) (data : Json F)
    (path : String) : Except OverrideError (Json F) :=
  match change (lib.get data path) with
  | .error error => .error error
  | .ok none => .ok data
  | .ok (some new) => (lib.set data path new).mapError .library

/-- The cases of `applyOperations` that change what they find. -/
def PathLibrary.applyChange (lib : PathLibrary F) (change : PathChange F) :
    Json F → String → Except OverrideError (Json F) :=
  lib.applyPaths (lib.changeValue change)

/-! ### The modes -/

/-- What the modes use of Go's standard library. -/
structure TextLibrary (F : Type) where
  /-- `fmt.Sprintf("%v", value)` -/
  sprint : Json F → String
  toLower : String → String
  toUpper : String → String
  /-- `regexp.Compile`, and then `ReplaceAllString` of a text by a replacement -/
  compile : String → Except String (String → String → String)

structure ParamOperation (F : Type) where
  path : String
  mode : String
  value : Json F
  keepOrigin : Bool
  fromText : String
  toText : String

def isNull : Json F → Bool
  | .scalar .null => true
  | .scalar _ | .array _ | .object _ => false

/-- The text of `gjson.Type`, which is that of null for what is not there. -/
def typeText : Option (Json F) → String
  | none | some (.scalar .null) => "Null"
  | some (.scalar (.bool value)) => if value then "True" else "False"
  | some (.scalar (.number _)) => "Number"
  | some (.scalar (.string _)) => "String"
  | some (.array _) | some (.object _) => "JSON"

def setValue (value : Json F) (keepOrigin : Bool) : PathChange F := fun current =>
  .ok (if keepOrigin && current.isSome then none else some value)

/-- The values that are added to an array; an empty slice that was never filled is written as null. -/
def PathLibrary.modifyArray (lib : PathLibrary F) (value : Json F) (isPrepend : Bool)
    (items : List (Json F)) : Json F :=
  let added := match value with
    | .array arr => arr
    | .scalar _ | .object _ => [value]
  let original := items.map (·.mapNumber lib.float)
  let newArray := if isPrepend then added ++ original else original ++ added
  if newArray.isEmpty then .null else .array newArray

def PathLibrary.mergeObjects (lib : PathLibrary F) (value : Json F) (keepOrigin : Bool)
    (fields : List (String × Json F)) : Except OverrideError (Json F) := do
  if !(Json.object fields).allNumbers lib.isFloat then throw .decode
  let newMap ← match value with
    | .object newMap => .ok newMap
    | .scalar .null => .ok []
    | .scalar _ | .array _ => .error .decode
  let currentMap := fields.map fun field => (field.1, field.2.mapNumber lib.float)
  return .object (newMap.foldl (fun result entry =>
    if !keepOrigin || ((getField entry.1 result).map isNull).getD true then
      setField entry.1 entry.2 result
    else result) currentMap)

def modifyValue (lib : PathLibrary F) (text : TextLibrary F) (value : Json F)
    (keepOrigin isPrepend : Bool) : PathChange F
  | some (.array items) => .ok (some (lib.modifyArray value isPrepend items))
  | some (.scalar (.string current)) =>
    .ok (some (.scalar (.string
      (if isPrepend then text.sprint value ++ current else current ++ text.sprint value))))
  | some (.object fields) => (lib.mergeObjects value keepOrigin fields).map some
  | current => .error (.unsupported (typeText current))

/-- A mode that is for strings alone. -/
def onString (change : String → Except OverrideError (Option String)) : PathChange F
  | some (.scalar (.string current)) =>
    (change current).map fun new => new.map fun text => .scalar (.string text)
  | current => .error (.unsupported (typeText current))

def trimStringValue (text : TextLibrary F) (value : Json F) (isPrefix : Bool) : PathChange F :=
  onString fun current =>
    if isNull value then .error (.required "trim value is required")
    else
      let valueStr := text.sprint value
      .ok (some (if isPrefix then trimPrefix current valueStr
        else (cutSuffix current valueStr).getD current))

def ensureStringAffix (text : TextLibrary F) (value : Json F) (isPrefix : Bool) : PathChange F :=
  onString fun current =>
    let valueStr := text.sprint value
    if isNull value || valueStr == "" then .error (.required "ensure value is required")
    else if isPrefix then
      .ok (if hasPrefix current valueStr then none else some (valueStr ++ current))
    else .ok (if hasSuffix current valueStr then none else some (current ++ valueStr))

def transformStringValue (transform : String → String) : PathChange F :=
  onString fun current => .ok (some (transform current))

def replaceStringValue (fromText toText : String) : PathChange F :=
  onString fun current =>
    if fromText = "" then .error (.required "replace from is required")
    else .ok (some (String.ofList
      (Replace.replaceAll fromText.toList toText.toList current.toList)))

def regexReplaceStringValue (text : TextLibrary F) (pattern replacement : String) : PathChange F :=
  onString fun current =>
    if pattern = "" then .error (.required "regex pattern is required")
    else
      match text.compile pattern with
      | .error message => .error (.regexp message)
      | .ok replaceAllString => .ok (some (replaceAllString current replacement))

/-- The cases of `applyOperations` that change what a path finds. -/
def ParamOperation.change (lib : PathLibrary F) (text : TextLibrary F) (op : ParamOperation F) :
    Option (PathChange F) :=
  match op.mode with
  | "set" => some (setValue op.value op.keepOrigin)
  | "prepend" => some (modifyValue lib text op.value op.keepOrigin true)
  | "append" => some (modifyValue lib text op.value op.keepOrigin false)
  | "trim_prefix" => some (trimStringValue text op.value true)
  | "trim_suffix" => some (trimStringValue text op.value false)
  | "ensure_prefix" => some (ensureStringAffix text op.value true)
  | "ensure_suffix" => some (ensureStringAffix text op.value false)
  | "trim_space" => some (transformStringValue trimSpace)
  | "to_lower" => some (transformStringValue text.toLower)
  | "to_upper" => some (transformStringValue text.toUpper)
  | "replace" => some (replaceStringValue op.fromText op.toText)
  | "regex_replace" => some (regexReplaceStringValue text op.fromText op.toText)
  | _ => none

/-- What `applyOperations` makes of an operation in one of these modes. -/
def PathLibrary.applyOperation (lib : PathLibrary F) (text : TextLibrary F) (op : ParamOperation F)
    (data : Json F) : Option (Except OverrideError (Json F)) :=
  (op.change lib text).map fun change => lib.applyChange change data op.path

end JulongApi.Override
