/-!
# Finite doubles, exactly

A finite double is a sign and a magnitude `significand · 2 ^ exponent`.  Nothing
here computes with machine floats: a magnitude is a pair of integers, and every
operation is an exact quotient of naturals rounded once, to nearest, a tie going
to the even significand.

* `Magnitude.ofRatio` --- the one place where rounding happens;
* `Magnitude.mul`, `Magnitude.div` --- products and quotients, rounded once;
* `Magnitude.ofScientific` --- a decimal number, rounded once;
* `Magnitude.ofDecimal` --- how a numeral's digits and decimal exponent are read:
  the digits are rounded first, and then scaled by rounded powers of ten.
-/

namespace GraphSearch

/-- The size of a finite double, `significand · 2 ^ exponent`.  Values made in this
module are canonical: either the significand has its full 53 bits, or the exponent
is the least one, `-1074`. -/
structure Magnitude where
  significand : Nat
  exponent : Int
  deriving DecidableEq, Repr, Inhabited

/-- A finite double.  Zero keeps its sign. -/
structure Double where
  negative : Bool
  magnitude : Magnitude
  deriving DecidableEq, Repr, Inhabited

namespace Magnitude

/-! ## 1.  Rounding -/

/-- `num / den` to the nearest natural, a tie going to the even one. -/
def roundDiv (num den : Nat) : Nat :=
  let quotient := num / den
  let twice := 2 * (num % den)
  if den < twice ∨ (twice = den ∧ quotient % 2 = 1) then quotient + 1 else quotient

/-- The least exponent of a double. -/
def minExponent : Int := -1074

/-- The greatest exponent of a finite double. -/
def maxExponent : Int := 971

/-- Nothing at all. -/
def zero : Magnitude := ⟨0, minExponent⟩

/-- `num / den` in units of `2 ^ exponent`, as a quotient of naturals. -/
def inUnits (num den : Nat) (exponent : Int) : Nat × Nat :=
  (num * Nat.pow 2 (-exponent).toNat, den * Nat.pow 2 exponent.toNat)

/-- The exponent at which `num / den` has 53 bits, or the least one below that.

The quotient of the leading powers of two is off by at most one, so one comparison
settles it. -/
def exponentOf (num den : Nat) : Int :=
  let guess : Int := (Nat.log2 num : Int) - (Nat.log2 den : Int) - 52
  let scaled := inUnits num den guess
  let exact := if scaled.1 < Nat.pow 2 52 * scaled.2 then guess - 1 else guess
  max exact minExponent

/-- The double nearest to `num / den`; `none` when that is beyond the finite ones. -/
def ofRatio (num den : Nat) : Option Magnitude :=
  if num = 0 then some zero else
    let exponent := exponentOf num den
    let scaled := inUnits num den exponent
    let rounded := roundDiv scaled.1 scaled.2
    let result : Magnitude :=
      if rounded = Nat.pow 2 53 then ⟨Nat.pow 2 52, exponent + 1⟩ else ⟨rounded, exponent⟩
    if maxExponent < result.exponent then none else some result

/-! ## 2.  Arithmetic -/

/-- The magnitude as a quotient of naturals. -/
def toRatio (x : Magnitude) : Nat × Nat :=
  (x.significand * Nat.pow 2 x.exponent.toNat, Nat.pow 2 (-x.exponent).toNat)

/-- The rounded product. -/
def mul (x y : Magnitude) : Option Magnitude :=
  ofRatio (x.toRatio.1 * y.toRatio.1) (x.toRatio.2 * y.toRatio.2)

/-- The rounded quotient; the divisor is never zero where this is used. -/
def div (x y : Magnitude) : Option Magnitude :=
  ofRatio (x.toRatio.1 * y.toRatio.2) (x.toRatio.2 * y.toRatio.1)

/-- The double nearest to `10 ^ k`; `none` above `10 ^ 308`. -/
def tenPow (k : Nat) : Option Magnitude := ofRatio (Nat.pow 10 k) 1

/-! ## 3.  Decimal numerals -/

/-- The greatest power of ten among the doubles. -/
def maxTenPow : Nat := 308

/-- `x / 10 ^ k`, dividing by `10 ^ 308` as long as `k` is larger than that and
something is left to divide. -/
def divTenPow (x : Magnitude) (k : Nat) : Option Magnitude :=
  if x.significand = 0 then some x
  else if _ : k ≤ maxTenPow then (tenPow k).bind x.div
  else ((tenPow maxTenPow).bind x.div).bind fun y => divTenPow y (k - maxTenPow)
termination_by k
decreasing_by simp only [maxTenPow] at *; omega

/-- The double nearest to `digits · 10 ^ exponent`; `none` when that is beyond the finite
ones.  The power is computed only where it can matter: above `10 ^ 308` every product is
too large, and far below the least double every product rounds to zero. -/
def ofScientific (digits : Nat) (exponent : Int) : Option Magnitude :=
  if digits = 0 then some zero
  else if maxTenPow < exponent then none
  else if exponent < -(Nat.log2 digits + 400 : Nat) then some zero
  else ofRatio (digits * Nat.pow 10 exponent.toNat) (Nat.pow 10 (-exponent).toNat)

/-- `digits · 10 ^ exponent` as a numeral denotes it: the digits are rounded to a
double, which is then multiplied by, or divided by, rounded powers of ten.  `none`
when the result is too large. -/
def ofDecimal (digits : Nat) (exponent : Int) : Option Magnitude := do
  let x ← ofRatio digits 1
  if exponent < 0 then x.divTenPow exponent.natAbs
  else if x.significand = 0 then some x
  else if exponent.natAbs ≤ maxTenPow then (tenPow exponent.natAbs).bind x.mul
  else none

end Magnitude
end GraphSearch
