/-
The operation `prune_objects` of an override, in `relay/common/override.go`: objects that meet
conditions are taken out of what a path finds, at any depth.

The conditions are those of `checkConditions`.  A map is gone through in an order of its own, which
is that of the fields here.
-/
import JulongApi.Override

namespace JulongApi.Override

open JsonTree

variable {F : Type}

/-! ### Conditions -/

structure ConditionOperation (F : Type) where
  /-- the path of the value -/
  path : String
  /-- `full`, `prefix`, `suffix`, `contains`, `regex`, `gt`, `gte`, `lt` or `lte` -/
  mode : String
  /-- what is compared with, where it is given -/
  value : Option (Json F)
  /-- the result is negated -/
  invert : Bool
  /-- what a missing key gives -/
  passMissingKey : Bool

inductive ConditionError where
  /-- `compare for different types, got %v and %v` -/
  | differentTypes (type targetType : String)
  /-- `numeric comparison requires both values to be numbers, got %v and %v` -/
  | notNumbers (type targetType : String)
  /-- `regex pattern must be a string` -/
  | regexNotString
  /-- `invalid regex pattern: %w` -/
  | regexp (message : String)
  /-- `unsupported comparison mode: %s` -/
  | unsupportedMode (mode : String)
deriving DecidableEq, Repr

/-- What is used of values that are compared. -/
structure Comparison (F : Type) where
  /-- `gjson.Result.String` -/
  text : Json F → String
  /-- `gjson.Result.Num`, compared -/
  same : F → F → Bool
  less : F → F → Bool
  /-- `regexp.Compile`, to its `MatchString` -/
  regexp : String → Except String (String → Bool)

/-- `gjson.Type` as text. -/
def gjsonType : Json F → String
  | .scalar .null => "Null"
  | .scalar (.bool true) => "True"
  | .scalar (.bool false) => "False"
  | .scalar (.number _) => "Number"
  | .scalar (.string _) => "String"
  | .array _ | .object _ => "JSON"

def Comparison.compareEqual (c : Comparison F) (jsonValue targetValue : Json F) :
    Except ConditionError Bool :=
  match jsonValue, targetValue with
  | .scalar .null, .scalar .null => .ok true
  | .scalar .null, _ | _, .scalar .null => .ok false
  | .scalar (.bool value), .scalar (.bool target) => .ok (value == target)
  | .scalar (.number value), .scalar (.number target) => .ok (c.same value target)
  | .scalar (.string value), .scalar (.string target) => .ok (value == target)
  | jsonValue, targetValue =>
    if gjsonType jsonValue = gjsonType targetValue then
      .ok (c.text jsonValue == c.text targetValue)
    else .error (.differentTypes (gjsonType jsonValue) (gjsonType targetValue))

/-- `compareNumeric`, by what it asks of two numbers. -/
def compareNumeric (holds : F → F → Bool) (jsonValue targetValue : Json F) :
    Except ConditionError Bool :=
  match jsonValue, targetValue with
  | .scalar (.number value), .scalar (.number target) => .ok (holds value target)
  | _, _ => .error (.notNumbers (gjsonType jsonValue) (gjsonType targetValue))

def Comparison.compareGjsonValues (c : Comparison F) (condition : ConditionOperation F)
    (jsonValue targetValue : Json F) : Except ConditionError Bool :=
  let mode := toLower condition.mode
  if mode = "full" then c.compareEqual jsonValue targetValue
  else if mode = "prefix" then .ok (hasPrefix (c.text jsonValue) (c.text targetValue))
  else if mode = "suffix" then .ok (hasSuffix (c.text jsonValue) (c.text targetValue))
  else if mode = "contains" then
    .ok (c.text targetValue == "" || contains (c.text jsonValue) (c.text targetValue))
  else if mode = "regex" then
    match targetValue with
    | .scalar (.string pattern) =>
      match c.regexp pattern with
      | .error message => .error (.regexp message)
      | .ok matchString => .ok (matchString (c.text jsonValue))
    | _ => .error .regexNotString
  else if mode = "gt" then compareNumeric (fun a b => c.less b a) jsonValue targetValue
  else if mode = "gte" then
    compareNumeric (fun a b => c.less b a || c.same a b) jsonValue targetValue
  else if mode = "lt" then compareNumeric c.less jsonValue targetValue
  else if mode = "lte" then
    compareNumeric (fun a b => c.less a b || c.same a b) jsonValue targetValue
  else .error (.unsupportedMode mode)

/-- `checkSingleCondition`; there is no context where its JSON is empty.  An error is
`comparison failed for path %s: %v`. -/
def PathLibrary.checkSingleCondition (lib : PathLibrary F) (c : Comparison F) (data : Json F)
    (context : Option (Json F)) (condition : ConditionOperation F) :
    Except (String × ConditionError) Bool :=
  let path := lib.processNegativeIndex data condition.path
  let value := (lib.get data path).orElse fun _ =>
    context.bind fun context => lib.get context condition.path
  match value with
  | none => .ok condition.passMissingKey
  | some value =>
    match c.compareGjsonValues condition value (condition.value.getD (.scalar .null)) with
    | .error error => .error (condition.path, error)
    | .ok result => .ok (if condition.invert then !result else result)

/-- `checkConditions`: all of them for the logic `AND`, and else one. -/
def PathLibrary.checkConditions (lib : PathLibrary F) (c : Comparison F) (data : Json F)
    (context : Option (Json F)) (conditions : List (ConditionOperation F)) (logic : String) :
    Except (String × ConditionError) Bool :=
  if conditions = [] then .ok true
  else
    (conditions.mapM (lib.checkSingleCondition c data context)).map fun results =>
      if toUpper logic = "AND" then results.all id else results.any id

/-! ### Options -/

structure PruneObjectsOptions (F : Type) where
  conditions : List (ConditionOperation F)
  logic : String
  recursive : Bool

inductive PruneError where
  /-- what is wrong with the value, as in `prune_objects value is required` -/
  | value (message : String)
  /-- `comparison failed for path %s: %v` -/
  | condition (path : String) (error : ConditionError)
  | override (error : OverrideError)
deriving DecidableEq, Repr

/-- A condition that asks for a value. -/
def fullCondition (path : String) (value : Option (Json F)) : ConditionOperation F where
  path := path
  mode := "full"
  value := value
  invert := false
  passMissingKey := false

/-- The text of a field, where it has one. -/
def stringField (name : String) (fields : List (String × Json F)) : Option String :=
  match getField name fields with
  | some (.scalar (.string text)) => some text
  | _ => none

def boolField (name : String) (fields : List (String × Json F)) : Option Bool :=
  match getField name fields with
  | some (.scalar (.bool value)) => some value
  | _ => none

/-- The conditions of a map from paths to values; a blank path is left out. -/
def mapConditions (fields : List (String × Json F)) : List (ConditionOperation F) :=
  fields.filterMap fun field =>
    let path := trimSpace field.1
    if path = "" then none else some (fullCondition path (some field.2))

/-- An item of a list of conditions. -/
def parseConditionItem : Json F → Except PruneError (ConditionOperation F)
  | .object itemMap =>
    let path := (stringField "path" itemMap).getD ""
    let mode := (stringField "mode" itemMap).getD ""
    if trimSpace path = "" ∨ trimSpace mode = "" then
      .error (.value "condition path/mode is required")
    else
      .ok {
        path := path
        mode := mode
        value := getField "value" itemMap
        invert := (boolField "invert" itemMap).getD false
        passMissingKey := (boolField "pass_missing_key" itemMap).getD false }
  | _ => .error (.value "condition must be object")

def parseConditionOperations : Json F → Except PruneError (List (ConditionOperation F))
  | .object fields =>
    let conditions := mapConditions fields
    if conditions = [] then .error (.value "conditions object must contain at least one key")
    else .ok conditions
  | .array items => items.mapM parseConditionItem
  | _ => .error (.value "conditions must be an array or object")

/-- The case of a map of `parsePruneObjectsOptions`. -/
def parsePruneObjectsMap (raw : List (String × Json F)) :
    Except PruneError (PruneObjectsOptions F) := do
  let logic := ((stringField "logic" raw).filter fun logic => trimSpace logic ≠ "").getD "AND"
  let recursive := (boolField "recursive" raw).getD true
  let conditions ← match getField "conditions" raw with
    | some condRaw => parseConditionOperations condRaw
    | none => .ok []
  let whereConditions ← match getField "where" raw with
    | some (.object whereMap) => .ok (mapConditions whereMap)
    | some _ => .error (.value "prune_objects where must be object")
    | none => .ok []
  let typeConditions := match getField "type" raw with
    | some matchType => [fullCondition "type" (some matchType)]
    | none => []
  .ok {
    conditions := conditions ++ whereConditions ++ typeConditions
    logic := logic
    recursive := recursive }

def parsePruneObjectsOptions (value : Option (Json F)) :
    Except PruneError (PruneObjectsOptions F) := do
  let opts ← match value with
    | none | some (.scalar .null) => .error (.value "prune_objects value is required")
    | some (.scalar (.string raw)) =>
      let v := trimSpace raw
      if v = "" then .error (.value "prune_objects value is required")
      else
        .ok {
          conditions := [fullCondition "type" (some (.scalar (.string v)))]
          logic := "AND"
          recursive := true }
    | some (.object raw) => parsePruneObjectsMap raw
    | some _ => .error (.value "prune_objects value must be string or object")
  if opts.conditions = [] then .error (.value "prune_objects conditions are required") else .ok opts

/-! ### Pruning -/

section Prune

variable (lib : PathLibrary F) (c : Comparison F) (options : PruneObjectsOptions F)
  (context : Option (Json F))

def shouldPruneObject (node : List (String × Json F)) : Except PruneError Bool :=
  (lib.checkConditions c (.object node) context options.conditions options.logic).mapError
    fun error => .condition error.1 error.2

mutual

/-- `pruneObjectsNode`: nothing where the node is dropped. -/
def pruneObjectsNode (isRoot : Bool) : Json F → Except PruneError (Option (Json F))
  | .array value => (pruneItems value).map fun result => some (.array result)
  | .object value =>
    match shouldPruneObject lib c options context value with
    | .error error => .error error
    | .ok shouldDrop =>
      if shouldDrop && !isRoot then .ok none
      else if !options.recursive then .ok (some (.object value))
      else (pruneFields value).map fun result => some (.object result)
  | .scalar value => .ok (some (.scalar value))

def pruneItems : List (Json F) → Except PruneError (List (Json F))
  | [] => .ok []
  | item :: rest =>
    match pruneObjectsNode false item with
    | .error error => .error error
    | .ok none => pruneItems rest
    | .ok (some next) => (pruneItems rest).map (next :: ·)

def pruneFields : List (String × Json F) → Except PruneError (List (String × Json F))
  | [] => .ok []
  | (key, child) :: rest =>
    match pruneObjectsNode false child with
    | .error error => .error error
    | .ok none => pruneFields rest
    | .ok (some next) => (pruneFields rest).map ((key, next) :: ·)

end

end Prune

/-- `pruneObjects`; `SetRawBytes` writes a value as `SetBytes` does. -/
def PathLibrary.pruneObjects (lib : PathLibrary F) (c : Comparison F) (data : Json F)
    (path : String) (context value : Option (Json F)) : Except PruneError (Json F) := do
  let options ← parsePruneObjectsOptions value
  if path = "" then
    let root ← (lib.unmarshal data).mapError .override
    let cleaned ← pruneObjectsNode lib c options context true root
    .ok (cleaned.getD .null)
  else
    match lib.get data path with
    | none => .ok data
    | some target =>
      let targetNode ← (lib.unmarshal target).mapError .override
      let cleaned ← pruneObjectsNode lib c options context true targetNode
      (lib.set data path (cleaned.getD .null)).mapError fun message => .override (.library message)

end JulongApi.Override
