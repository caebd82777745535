/-
What a JavaScript program computes with: strings of UTF-16 code units, and doubles.

A double is the rational it denotes, and zero has its sign.  Neither an infinity nor a NaN
is a `Double`: an operation whose result is one of them has no result here.
-/
import Mathlib.Algebra.Order.Ring.Rat
import Mathlib.Data.Rat.Floor

namespace JulongApi.JavaScript

/-! ### Strings -/

abbrev JsChar := UInt16

abbrev JsString := List JsChar

def codeUnits (c : Char) : JsString :=
  if c.toNat < 0x10000 then [c.toNat.toUInt16]
  else
    [(0xD800 + (c.toNat - 0x10000) / 0x400).toUInt16,
      (0xDC00 + (c.toNat - 0x10000) % 0x400).toUInt16]

def js (s : String) : JsString := s.toList.flatMap codeUnits

instance : Coe String JsString := ⟨js⟩

/-- The text of well-formed code units; a lone surrogate becomes U+FFFD. -/
def toWellFormed : JsString → List Char
  | [] => []
  | high :: low :: rest =>
    if 0xD800 ≤ high ∧ high < 0xDC00 ∧ 0xDC00 ≤ low ∧ low < 0xE000 then
      Char.ofNat (0x10000 + (high.toNat - 0xD800) * 0x400 + (low.toNat - 0xDC00)) ::
        toWellFormed rest
    else
      (if 0xD800 ≤ high ∧ high < 0xE000 then '\uFFFD' else Char.ofNat high.toNat) ::
        toWellFormed (low :: rest)
  | [c] => [if 0xD800 ≤ c ∧ c < 0xE000 then '\uFFFD' else Char.ofNat c.toNat]

/-! ### Doubles -/

def twoPow (e : Int) : ℚ :=
  if 0 ≤ e then ((2 ^ e.toNat : ℕ) : ℚ) else 1 / ((2 ^ (-e).toNat : ℕ) : ℚ)

def binaryExponent (q : ℚ) : Int :=
  let e := (Nat.log2 q.num.natAbs : Int) - Nat.log2 q.den
  if |q| < twoPow e then e - 1 else e

/-- The double nearest to `q`, a tie going to the even one; past the largest there is none. -/
def roundToDouble (q : ℚ) : Option ℚ :=
  if 2 ^ 1024 - 2 ^ 970 ≤ |q| then none
  else if q = 0 then some 0
  else
    let ulp := twoPow (max (binaryExponent q - 52) (-1074))
    let steps := |q| / ulp
    let down := steps.floor
    let up := 1 < 2 * (steps - down) ∨ (2 * (steps - down) = 1 ∧ down % 2 = 1)
    let rounded := (if up then down + 1 else down) * ulp
    some (if q < 0 then -rounded else rounded)

structure Double where
  value : ℚ
  negativeZero : Bool
  zero_of_negativeZero : negativeZero = true → value = 0
deriving DecidableEq

namespace Double

def ofValue (value : ℚ) (negative : Bool) : Double where
  value := value
  negativeZero := negative && value == 0
  zero_of_negativeZero := by simp

def ofInt (n : Int) : Double := ofValue n false

/-- The result of an operation whose exact result is `exact`; `negative` is the sign of a zero. -/
def round (exact : ℚ) (negative : Bool) : Option Double :=
  (roundToDouble exact).map (ofValue · negative)

def negative (a : Double) : Bool := a.value < 0 || a.negativeZero

def mul (a b : Double) : Option Double := round (a.value * b.value) (a.negative != b.negative)

def isInteger (a : Double) : Bool := a.value.den == 1

def isSafeInteger (a : Double) : Bool := a.isInteger && decide (|a.value| < 2 ^ 53)

theorem round_isSome (exact : ℚ) (negative : Bool) :
    (round exact negative).isSome = true ↔ |exact| < 2 ^ 1024 - 2 ^ 970 := by
  rw [round, Option.isSome_map, roundToDouble]
  by_cases h : 2 ^ 1024 - 2 ^ 970 ≤ |exact|
  · simp only [if_pos h]
    simpa using h
  · simp only [if_neg h]
    have hlt := not_le.mp h
    by_cases hzero : exact = 0
    · simpa [hzero] using hlt
    · simpa [hzero] using hlt

end Double

end JulongApi.JavaScript
