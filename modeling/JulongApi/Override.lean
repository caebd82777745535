/-
Param overrides: `relay/common/override.go`.

A request body is a JSON value, and the values of an override are values of the same kind.  A
number is kept as it is written; Go reads it as a float64 and writes that one's shortest text.  How
`gjson` and `sjson` find, write and delete the value at a path are parameters, with what they
document of a path.

The conditions of operations, the audit, and the operations on headers are left out.
-/
import JulongApi.Lib.JsonPath
import JulongApi.Strings

namespace JulongApi.Override

open JsonTree

variable {F : Type}

/-! ### Paths -/

/-- The characters that make a path a query. -/
def isQueryChar (c : Char) : Bool := c ∈ ['|', '#', '@', '*', '?']

/-- The components of the rest of a path, where it names them literally; `start` says that a
component begins, whose colon is dropped. -/
def readComponents (start : Bool) (component : List Char) : List Char → Option (List String)
  | [] => some [String.ofList component.reverse]
  | ['\\'] => some [String.ofList component.reverse]
  | '\\' :: c :: rest => readComponents false (c :: component) rest
  | c :: rest =>
    if c = '.' then
      (readComponents true [] rest).map (String.ofList component.reverse :: ·)
    else if isQueryChar c then none
    else if start && c = ':' then readComponents false component rest
    else readComponents false (c :: component) rest

/-- The components a path names: none for the empty path and for a query. -/
def readPath (path : String) : Option (List String) :=
  if path = "" then none else readComponents true [] path.toList

/-- What is used of `gjson` and `sjson`. -/
structure PathLibrary (F : Type) where
  /-- `gjson.GetBytes` -/
  get : Json F → String → Option (Json F)
  /-- `sjson.SetBytes` -/
  set : Json F → String → Json F → Except String (Json F)
  /-- `sjson.DeleteBytes` -/
  delete : Json F → String → Except String (Json F)
  /-- the number has a float64 -/
  isFloat : F → Bool
  /-- the number that is written for the float64 of a number -/
  float : F → F

/-- A component that stands for itself: `gjson` takes one that begins with `!` for a value, and one
that begins with a bracket or a brace for several paths; a path that begins with two empty ones is
read line by line. -/
def isName (component : String) : Bool :=
  component.toList.head?.any fun c => c ∉ ['!', '[', '{']

/-- Any component: no other character than those of a path is special. -/
def anyName (_ : String) : Bool := true

/-- The path is its components, joined, and each of them stands for itself. -/
structure Spells (literal : String → Bool) (path : String) (components : List String) : Prop where
  read : readPath path = some components
  joined : path = ".".intercalate components
  names : components.all literal = true

/-- What the libraries document of paths that name their components, where these are `literal`, and
go on in no string: `sjson` would look for the rest of the path in its text. -/
structure PathLibrary.Documented (lib : PathLibrary F) (literal : String → Bool) : Prop where
  get : ∀ doc path components, Spells literal path components →
    lib.get doc path = getAt components doc
  /-- the empty path is the empty name -/
  getEmpty : ∀ doc, lib.get doc "" = getAt [""] doc
  set : ∀ doc path components value new, Spells literal path components →
    entersText components doc = false → setAt value components doc = some new →
      lib.set doc path value = .ok new
  /-- there is no item of a name in an array -/
  setFails : ∀ doc path components value, Spells literal path components →
    entersText components doc = false → setAt value components doc = none →
      ∃ message, lib.set doc path value = .error message
  /-- a name with escapes, or after a colon, is a field of an object -/
  setName : ∀ fields path name value new, readPath path = some [name] → literal name = true →
    setAt value [name] (.object fields) = some new → lib.set (.object fields) path value = .ok new
  delete : ∀ doc path components, Spells literal path components →
    entersText components doc = false → lib.delete doc path = .ok (deleteAt components doc)
  /-- a query changes values that are there, and adds no field to an object -/
  setQuery : ∀ fields path value new, path ≠ "" → readPath path = none →
    lib.set (.object fields) path value = .ok new →
      ∃ fields', new = .object fields' ∧
        ∀ name, getField name fields = none → getField name fields' = none

theorem all_anyName (components : List String) : components.all anyName = true :=
  List.all_eq_true.mpr fun _ _ => rfl

inductive OverrideError where
  /-- `source path does not exist: %s` -/
  | sourceMissing (path : String)
  /-- an error of `sjson` -/
  | library (message : String)
  /-- from `common.Unmarshal`: a number does not fit a float64, or a value is no object -/
  | decode
  /-- `operation not supported for type: %v` -/
  | unsupported (type : String)
  /-- what a mode asks for and is not given, as in `trim value is required` -/
  | required (message : String)
  /-- an error of `regexp.Compile` -/
  | regexp (message : String)
deriving DecidableEq, Repr

/-- `common.Unmarshal` into any value. -/
def PathLibrary.unmarshal (lib : PathLibrary F) (data : Json F) : Except OverrideError (Json F) :=
  if data.allNumbers lib.isFloat then .ok (data.mapNumber lib.float) else .error .decode

/-! ### Negative indices -/

/-- A match of `\.(-\d+)` at the beginning: its group. -/
def negativeMatch : List Char → Option String
  | '.' :: '-' :: rest =>
    let digits := rest.takeWhile Char.isDigit
    if digits.isEmpty then none else some (String.ofList ('-' :: digits))
  | _ => none

/-- `negativeIndexRegexp.FindAllStringSubmatch`; a match holds no other dot. -/
def negativeMatches : List Char → List String
  | [] => []
  | c :: rest => (negativeMatch (c :: rest)).toList ++ negativeMatches rest

/-- `strings.Replace`, of the first occurrence. -/
def replaceFirst (s old new : String) : String :=
  match cut s old with
  | some (before, after) => before ++ new ++ after
  | none => s

/-- `strconv.Atoi` with its error ignored: a number that does not fit is the nearest that does. -/
def atoiOrNearest (s : String) : Int := (atoi s).getD (-(2 ^ 63))

/-- The step of the loop of `processNegativeIndex` for one match. -/
def PathLibrary.processMatch (lib : PathLibrary F) (data : Json F) (path result negIndex : String) :
    String :=
  let arrayPath := ((cut path negIndex).map (·.1)).getD path
  let arrayPath := (cutSuffix arrayPath ".").getD arrayPath
  match lib.get data arrayPath with
  | some (.array items) =>
    let actualIndex := (items.length : Int) + atoiOrNearest negIndex
    if 0 ≤ actualIndex ∧ actualIndex < items.length then
      replaceFirst result ("." ++ negIndex) ("." ++ toString actualIndex)
    else result
  | _ => result

def PathLibrary.processNegativeIndex (lib : PathLibrary F) (data : Json F) (path : String) : String :=
  (negativeMatches path.toList).foldl (lib.processMatch data path) path

/-! ### Legacy overrides -/

def escapeSjsonLiteralKey (key : String) : String :=
  String.ofList (key.toList.flatMap fun c =>
    if c ∈ ['.', '*', '?', '\\'] then ['\\', c] else [c])

/-- `applyOperationsLegacy`, in an order of the map. -/
def PathLibrary.applyOperationsLegacy (lib : PathLibrary F) (jsonData : Json F)
    (paramOverride : List (String × Json F)) : Except String (Json F) :=
  paramOverride.foldlM
    (fun result entry => lib.set result (escapeSjsonLiteralKey entry.1) entry.2) jsonData

/-! ### Moving -/

def PathLibrary.moveValue (lib : PathLibrary F) (data : Json F) (fromPath toPath : String) :
    Except OverrideError (Json F) :=
  match lib.get data fromPath with
  | none => .error (.sourceMissing fromPath)
  | some sourceValue => do
      let result ←
        (lib.set data toPath (sourceValue.mapNumber lib.float)).mapError .library
      (lib.delete result fromPath).mapError .library

/-- The case `move` of `applyOperations`. -/
def PathLibrary.applyMove (lib : PathLibrary F) (result : Json F) (fromPath toPath : String) :
    Except OverrideError (Json F) :=
  let opFrom := lib.processNegativeIndex result fromPath
  let opTo := lib.processNegativeIndex result toPath
  lib.moveValue result opFrom opTo

end JulongApi.Override
