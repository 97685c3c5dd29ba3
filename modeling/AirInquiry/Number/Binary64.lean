/-!
# Finite binary floating point numbers of 64 bits

A number is kept as a sign, a significand and an exponent of two, and all arithmetic on it is exact
arithmetic on natural numbers followed by one rounding. `ofRatio?` is that rounding: to the nearest
number, of two nearest ones to the even significand, with no result above the largest number.
Multiplication, division, conversion from integers and the reading of decimals are stated through
it, and `units` gives the exact value, in multiples of the least positive number.
-/

set_option autoImplicit false
set_option relaxedAutoImplicit false

namespace AirInquiry

/-- The number `± significand · 2 ^ exponent`. In the canonical form, which `Binary64.ofRatio?`
produces, the significand lies below `2 ^ 53`, the exponent is at least `-1074`, and the significand
reaches `2 ^ 52` unless the exponent is least. -/
structure Binary64 where
  negative : Bool
  significand : Nat
  exponent : Int
  deriving DecidableEq, Repr

namespace Binary64

/-- The least exponent of a number. -/
def leastExponent : Int := -1074

/-- The largest exponent of a number in canonical form. -/
def largestExponent : Int := 971

/-- The positive zero. -/
def zero : Binary64 := ⟨false, 0, leastExponent⟩

/-- The quotient rounded to the nearest integer, of two nearest ones to the even one. -/
def divideToEven (numerator denominator : Nat) : Nat :=
  let quotient := numerator / denominator
  let twice := 2 * (numerator % denominator)
  if twice < denominator then quotient
  else if denominator < twice then quotient + 1
  else if quotient % 2 = 0 then quotient
  else quotient + 1

/-- The quotient of `numerator` and `denominator · 2 ^ exponent` as a pair of natural numbers. -/
def scaledRatio (numerator denominator : Nat) (exponent : Int) : Nat × Nat :=
  if exponent < 0 then (numerator * Nat.pow 2 (-exponent).toNat, denominator)
  else (numerator, denominator * Nat.pow 2 exponent.toNat)

/-- The exponent that brings the quotient between `2 ^ 52` and `2 ^ 53`, or the least exponent where
that one is smaller. -/
def exponentOf (numerator denominator : Nat) : Int :=
  let guess := (numerator.log2 : Int) - denominator.log2 - 52
  let (scaledNumerator, scaledDenominator) := scaledRatio numerator denominator guess
  let exact := if scaledNumerator / scaledDenominator < Nat.pow 2 52 then guess - 1 else guess
  max exact leastExponent

/-- The number nearest to `± numerator / denominator`, if it is not too large. -/
def ofRatio? (negative : Bool) (numerator denominator : Nat) : Option Binary64 :=
  if numerator = 0 then some ⟨negative, 0, leastExponent⟩
  else
    let exponent := exponentOf numerator denominator
    let (scaledNumerator, scaledDenominator) := scaledRatio numerator denominator exponent
    let significand := divideToEven scaledNumerator scaledDenominator
    let (significand, exponent) :=
      if significand = Nat.pow 2 53 then (Nat.pow 2 52, exponent + 1) else (significand, exponent)
    if largestExponent < exponent then none else some ⟨negative, significand, exponent⟩

/-- The exact magnitude of a number as a quotient. -/
def ratio (x : Binary64) : Nat × Nat :=
  if x.exponent < 0 then (x.significand, Nat.pow 2 (-x.exponent).toNat)
  else (x.significand * Nat.pow 2 x.exponent.toNat, 1)

/-- The exact value of a number in multiples of `2 ^ -1074`. -/
def units (x : Binary64) : Int :=
  let magnitude : Int := (x.significand * Nat.pow 2 (x.exponent - leastExponent).toNat : Nat)
  if x.negative then -magnitude else magnitude

/-- Whether one number is less than another; the two zeros are equal. -/
def less (x y : Binary64) : Bool := x.units < y.units

/-- Whether two numbers are equal; the two zeros are. -/
def equals (x y : Binary64) : Bool := x.units = y.units

/-- Whether a number is one of the two zeros. -/
def isZero (x : Binary64) : Bool := x.significand = 0

/-- The number of opposite sign. -/
def negate (x : Binary64) : Binary64 := { x with negative := !x.negative }

/-- The nearest number to an integer; integers of 64 bits always have one. -/
def ofInt (value : Int) : Binary64 :=
  (ofRatio? (value < 0) value.natAbs 1).getD zero

/-- The rounded product, if it is not too large. -/
def multiply? (x y : Binary64) : Option Binary64 :=
  let (xNumerator, xDenominator) := x.ratio
  let (yNumerator, yDenominator) := y.ratio
  ofRatio? (x.negative != y.negative) (xNumerator * yNumerator) (xDenominator * yDenominator)

/-- The rounded quotient by a number other than zero, if it is not too large. -/
def divide? (x y : Binary64) : Option Binary64 :=
  let (xNumerator, xDenominator) := x.ratio
  let (yNumerator, yDenominator) := y.ratio
  ofRatio? (x.negative != y.negative) (xNumerator * yDenominator) (xDenominator * yNumerator)

/-- The number nearest to a power of ten; the powers up to the 308th have one. -/
def powerOfTen (power : Nat) : Binary64 := (ofRatio? false (Nat.pow 10 power) 1).getD zero

/-- The largest power of ten that is a number. -/
def largestPowerOfTen : Nat := 308

/-- `x` divided by a power of ten, in steps by the largest power of ten that is a number, each
step rounded. -/
def dividedByPower (x : Binary64) (power : Nat) : Binary64 :=
  if largestPowerOfTen < power then
    if x.isZero then x
    else
      dividedByPower ((x.divide? (powerOfTen largestPowerOfTen)).getD zero)
        (power - largestPowerOfTen)
  else (x.divide? (powerOfTen power)).getD zero
termination_by power
decreasing_by
  simp only [largestPowerOfTen] at *
  omega

/-- The decimal `± significand · 10 ^ exponent` read in two rounded steps: the significand first,
then its product with, or quotient by, a power of ten. There is none if it is too large. -/
def ofDecimal? (negative : Bool) (significand : Nat) (exponent : Int) : Option Binary64 :=
  let magnitude := ofInt significand
  let scaled :=
    if exponent < 0 then some (magnitude.dividedByPower exponent.natAbs)
    else if exponent.toNat ≤ largestPowerOfTen then
      magnitude.multiply? (powerOfTen exponent.toNat)
    else if magnitude.isZero then some magnitude
    else none
  scaled.map fun x ↦ if negative then x.negate else x

end Binary64

end AirInquiry
