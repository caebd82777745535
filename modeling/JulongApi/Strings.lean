/-
Strings as the server handles them.
-/
import Mathlib

namespace JulongApi

def isSpace (c : Char) : Bool :=
  c.toNat ∈ [0x09, 0x0A, 0x0B, 0x0C, 0x0D, 0x20, 0x85, 0xA0, 0x1680, 0x2028, 0x2029, 0x202F,
    0x205F, 0x3000] || (0x2000 ≤ c.toNat && c.toNat ≤ 0x200A)

/-- `strings.TrimSpace(requestId) == ""`. -/
def isBlank (s : String) : Bool := s.toList.all isSpace

def trimSpace (s : String) : String :=
  String.ofList ((s.toList.dropWhile isSpace).reverse.dropWhile isSpace).reverse

/-- `strings.Split`, by one character. -/
def split (s : String) (sep : Char) : List String := (s.toList.splitOn sep).map String.ofList

/-- `strings.Trim`, of one character. -/
def trimChar (s : String) (c : Char) : String :=
  String.ofList ((s.toList.dropWhile (· == c)).reverse.dropWhile (· == c)).reverse

def hasPrefix (s start : String) : Bool := start.toList.isPrefixOf s.toList

def hasSuffix (s stop : String) : Bool := stop.toList.isSuffixOf s.toList

def cutPrefix (s start : String) : Option String :=
  if start.toList.isPrefixOf s.toList then some (String.ofList (s.toList.drop start.length))
  else none

def trimPrefix (s start : String) : String := (cutPrefix s start).getD s

/-- `strings.HasSuffix` and `strings.TrimSuffix`. -/
def cutSuffix (s stop : String) : Option String :=
  if stop.toList.isSuffixOf s.toList then
    some (String.ofList (s.toList.take (s.length - stop.length)))
  else none

/-- What stands before and after the first `sep`: `strings.Cut`, for a `sep` that is not empty. -/
def cut (s sep : String) : Option (String × String) :=
  go [] s.toList
where
  go (before : List Char) : List Char → Option (String × String)
    | [] => none
    | c :: rest =>
      if sep.toList.isPrefixOf (c :: rest) then
        some (String.ofList before.reverse,
          String.ofList ((c :: rest).drop sep.length))
      else go (c :: before) rest

/-- `strings.Contains`, for a `sep` that is not empty. -/
def contains (s sep : String) : Bool := (cut s sep).isSome

def lastIndex (s sep : String) : Option Nat :=
  (List.range (s.toList.length + 1)).reverse.find? fun i => sep.toList.isPrefixOf (s.toList.drop i)

/-- `unicode.ToUpper`, as far as it gives an ASCII letter. -/
def upperChar (c : Char) : Char :=
  if c = 'ı' then 'I' else if c = 'ſ' then 'S' else c.toUpper

/-- `strings.ToUpper`, for a comparison with ASCII text. -/
def toUpper (s : String) : String := String.ofList (s.toList.map upperChar)

/-- `unicode.ToLower`, of the characters that it takes to ASCII. -/
def toLowerChar (c : Char) : Char :=
  if c = '\u212A' then 'k' else if c = '\u0130' then 'i' else c.toLower

/-- `strings.ToLower`, for a comparison with ASCII text. -/
def toLower (s : String) : String := String.ofList (s.toList.map toLowerChar)

/-- `strings.EqualFold`, for ASCII text without k and s. -/
def equalFold (s t : String) : Bool := s.toList.map Char.toUpper == t.toList.map Char.toUpper

/-- `strconv.Atoi`, with an `int` of 64 bits. -/
def atoi (s : String) : Option Int :=
  match s.toList with
  | '-' :: digits => (magnitude digits).bind fun n => if n ≤ 2 ^ 63 then some (-n) else none
  | '+' :: digits => (magnitude digits).bind fun n => if n < 2 ^ 63 then some n else none
  | digits => (magnitude digits).bind fun n => if n < 2 ^ 63 then some n else none
where
  magnitude (digits : List Char) : Option Nat :=
    if digits.isEmpty || !digits.all Char.isDigit then none
    else some (digits.foldl (fun n c => 10 * n + (c.toNat - '0'.toNat)) 0)

/-- `jsplugin.ValidPluginKey`. -/
def validPluginKey (key : String) : Bool :=
  key.utf8ByteSize ≤ 30 &&
    match key.toList with
    | [] => false
    | first :: rest =>
      (first.isLower || first.isDigit) &&
        rest.all fun c => c.isLower || c.isDigit || c == '_' || c == '-'

end JulongApi
