/-
Products of float64s.

A float64 is NaN, or has a sign and a magnitude; a magnitude is a number or infinite.  Signs
multiply on their own, so a product of factors that are not negative is not negative either, unless
it is NaN.  That happens in one way only: a product that is past the largest float is multiplied by
zero (`product_nonneg_iff`).
-/
import Mathlib.Data.Int.Log
import Mathlib.Data.NNRat.Floor

namespace FloatingPoint

/-- What a float64 is apart from its sign. -/
inductive Magnitude where
  | finite (value : ℚ≥0)
  | infinite
deriving DecidableEq

inductive Float64 where
  | number (negative : Bool) (magnitude : Magnitude)
  | nan
deriving DecidableEq

/-! ### Rounding -/

/-- The distance of the floats next to `q`: 53 bits are kept, and none below `2 ^ -1074`. -/
def ulp (q : ℚ≥0) : ℚ≥0 := 2 ^ max (Int.log 2 q - 52) (-1074)

/-- The magnitude nearest to a number, and of two that are equally near the even one. -/
def Magnitude.round (q : ℚ≥0) : Magnitude :=
  let down := ⌊q / ulp q⌋₊
  let rest := q / ulp q - down
  let steps := if 1 / 2 < rest ∨ (rest = 1 / 2 ∧ down % 2 = 1) then down + 1 else down
  if steps * ulp q < 2 ^ 1024 then .finite (steps * ulp q) else .infinite

/-- The float64 that is a rational number, where there is one. -/
def Float64.exact (q : ℚ) : Float64 := .number (decide (q < 0)) (.finite (Rat.nnabs q))

/-! ### Multiplication -/

/-- Zero and infinity have no product. -/
def Magnitude.mul : Magnitude → Magnitude → Option Magnitude
  | .finite a, .finite b => some (.round (a * b))
  | .finite a, .infinite => if a = 0 then none else some .infinite
  | .infinite, .finite b => if b = 0 then none else some .infinite
  | .infinite, .infinite => some .infinite

def Float64.mul : Float64 → Float64 → Float64
  | .number s a, .number t b =>
    match a.mul b with
    | some m => .number (s ^^ t) m
    | none => .nan
  | .number _ _, .nan => .nan
  | .nan, _ => .nan

theorem Magnitude.mul_comm (a b : Magnitude) : a.mul b = b.mul a := by
  cases a <;> cases b <;> simp [Magnitude.mul, CommMonoid.mul_comm]

theorem Float64.mul_comm (x y : Float64) : x.mul y = y.mul x := by
  cases x with
  | nan => cases y <;> rfl
  | number s a =>
    cases y with
    | nan => rfl
    | number t b => simp [Float64.mul, Magnitude.mul_comm a b, Bool.xor_comm s t]

/-! ### Signs -/

def Float64.IsNonneg : Float64 → Prop
  | .number negative magnitude => negative = false ∨ magnitude = .finite 0
  | .nan => False

def Float64.isInfinite : Float64 → Bool
  | .number _ .infinite => true
  | _ => false

def Float64.isZero : Float64 → Bool
  | .number _ (.finite value) => decide (value = 0)
  | _ => false

/-! ### Products -/

def product (x : Float64) (factors : List Float64) : Float64 := factors.foldl Float64.mul x

@[simp] theorem product_nil (x : Float64) : product x [] = x := rfl

@[simp] theorem product_cons (x factor : Float64) (factors : List Float64) :
    product x (factor :: factors) = product (x.mul factor) factors := rfl

theorem product_append (x : Float64) (before after : List Float64) :
    product x (before ++ after) = product (product x before) after := List.foldl_append

@[simp] theorem product_nan (factors : List Float64) : product .nan factors = .nan := by
  induction factors with
  | nil => rfl
  | cons factor factors ih => exact ih

/-- On the way a product that has become infinite is multiplied by zero. -/
def overflowLost (x : Float64) : List Float64 → Bool
  | [] => false
  | factor :: factors =>
    (x.isInfinite && factor.isZero) || overflowLost (x.mul factor) factors

/-- A product of factors that are not negative is NaN where an overflow is lost, and is not negative
otherwise. -/
theorem product_nonneg_iff {factors : List Float64}
    (hfactors : ∀ factor ∈ factors, ∃ value, factor = .number false (.finite value)) :
    ∀ magnitude, (product (.number false magnitude) factors).IsNonneg ↔
      overflowLost (.number false magnitude) factors = false := by
  induction factors with
  | nil => simp [Float64.IsNonneg, overflowLost]
  | cons factor factors ih =>
    intro magnitude
    obtain ⟨value, rfl⟩ := hfactors factor (by simp)
    have ih := ih fun factor hfactor => hfactors factor (List.mem_cons_of_mem _ hfactor)
    cases magnitude with
    | finite a =>
      simpa [overflowLost, Float64.mul, Magnitude.mul, Float64.isInfinite]
        using ih (.round (a * value))
    | infinite =>
      by_cases hzero : value = 0
      · simp [hzero, overflowLost, Float64.mul, Magnitude.mul, Float64.isInfinite,
          Float64.isZero, Float64.IsNonneg]
      · simpa [hzero, overflowLost, Float64.mul, Magnitude.mul, Float64.isInfinite,
          Float64.isZero] using ih .infinite

end FloatingPoint
