import AirInquiry.Number.Binary64

/-!
# Shortest decimals

A number is written with the fewest decimal digits that read back as it. Every real closer to it
than to its neighbours reads back as it, and a real half way does if the significand is even. For
one digit, two digits and so on up to seventeen, the two decimals of that length on either side of
the number are tried; the first length with a hit is the shortest, and of two hits the nearer is
taken. Where both are equally near, `Tie` decides.

Two layouts of such a decimal follow. `scientific` is the layout of data: positional from a hundred
thousandth up to sixteen digits and with an exponent outside, always marked as a fraction.
`positional` is the layout of prose: no exponent, and no fraction where there is none.
-/

set_option autoImplicit false
set_option relaxedAutoImplicit false

namespace AirInquiry

/-- The decimal `digits · 10 ^ exponent`. -/
structure Decimal where
  digits : Nat
  exponent : Int
  deriving DecidableEq, Repr

/-- Which of two equally near decimals is taken. -/
inductive Tie where
  | even
  | away
  deriving DecidableEq, Repr

namespace Decimal

/-- The number of decimal digits of a natural number, where zero has one. -/
def length (value : Nat) : Nat := (Nat.toDigits 10 value).length

/-- The largest `power` with `10 ^ power ≤ numerator / denominator`, for a positive quotient. -/
def magnitude (numerator denominator : Nat) : Int :=
  if denominator ≤ numerator then (length (numerator / denominator) : Int) - 1
  else -(length ((denominator - 1) / numerator) : Int)

/-- The reals that read back as a number: all between `low` and `high`, in quarters of a unit of
the number's last place, and the two ends if `closed`. -/
structure Interval where
  low : Nat
  value : Nat
  high : Nat
  closed : Bool

/-- The interval of a positive number. Below a power of two the numbers lie twice as close. -/
def Interval.of (x : Binary64) : Interval where
  low := 4 * x.significand -
    (if x.significand = Nat.pow 2 52 ∧ Binary64.leastExponent < x.exponent then 1 else 2)
  value := 4 * x.significand
  high := 4 * x.significand + 2
  closed := x.significand % 2 = 0

/-- The decimal of given digits, where ten units of a place are one unit of the next place. -/
def ofDigits (digits : Nat) (exponent : Int) : Decimal :=
  if digits = 10 then ⟨1, exponent + 1⟩ else ⟨digits, exponent⟩

/-- The decimal of `count` digits that reads back, if there is one, where the interval is given in
units of `2 ^ exponent`. Decimals and units are compared as multiples of one common step. -/
def ofLength? (tie : Tie) (interval : Interval) (exponent : Int) (count : Nat) :
    Option Decimal :=
  let unit := if exponent < 0 then 1 else Nat.pow 2 exponent.toNat
  let part := if exponent < 0 then Nat.pow 2 (-exponent).toNat else 1
  let power := magnitude (interval.value * unit) part + 1 - count
  let unit := if power < 0 then unit * Nat.pow 10 (-power).toNat else unit
  let step := if power < 0 then part else part * Nat.pow 10 power.toNat
  let value := interval.value * unit
  let readsBack (digits : Nat) : Bool :=
    let candidate := digits * step
    if interval.closed then interval.low * unit ≤ candidate && candidate ≤ interval.high * unit
    else interval.low * unit < candidate && candidate < interval.high * unit
  let below := value / step
  let above := below + 1
  match readsBack below && 0 < below, readsBack above with
  | false, false => none
  | true, false => some (ofDigits below power)
  | false, true => some (ofDigits above power)
  | true, true =>
    let fromBelow := value - below * step
    let toAbove := above * step - value
    if fromBelow < toAbove then some (ofDigits below power)
    else if toAbove < fromBelow then some (ofDigits above power)
    else if tie = .even ∧ below % 2 = 0 then some (ofDigits below power)
    else some (ofDigits above power)

/-- The shortest decimal that reads back as a positive number. -/
def shortest (tie : Tie) (x : Binary64) : Decimal :=
  let found := (List.range 17).findSome? fun count ↦
    ofLength? tie (Interval.of x) (x.exponent - 2) (count + 1)
  found.getD ⟨0, 0⟩

/-- `count` zeros. -/
def zeros (count : Nat) : List Char := List.replicate count '0'

/-- A decimal exponent after its mark, with a sign always. -/
def exponentText (power : Int) : List Char :=
  'e' :: (if power < 0 then '-' else '+') :: Nat.toDigits 10 power.natAbs

/-- A decimal in the layout of data. -/
def scientific (decimal : Decimal) : List Char :=
  let digits := Nat.toDigits 10 decimal.digits
  let point : Int := digits.length + decimal.exponent
  if 0 ≤ decimal.exponent ∧ point ≤ 16 then
    digits ++ zeros decimal.exponent.toNat ++ ['.', '0']
  else if 0 < point ∧ point ≤ 16 then
    digits.take point.toNat ++ '.' :: digits.drop point.toNat
  else if -5 < point ∧ point ≤ 0 then
    '0' :: '.' :: zeros (-point).toNat ++ digits
  else if digits.length = 1 then
    digits ++ exponentText (point - 1)
  else
    digits.take 1 ++ '.' :: digits.drop 1 ++ exponentText (point - 1)

/-- A decimal in the layout of prose. -/
def positional (decimal : Decimal) : List Char :=
  let digits := Nat.toDigits 10 decimal.digits
  let point : Int := digits.length + decimal.exponent
  if 0 ≤ decimal.exponent then digits ++ zeros decimal.exponent.toNat
  else if 0 < point then digits.take point.toNat ++ '.' :: digits.drop point.toNat
  else '0' :: '.' :: zeros (-point).toNat ++ digits

end Decimal

namespace Binary64

/-- The minus sign of a negative number, also of the negative zero. -/
def signText (x : Binary64) : List Char := if x.negative then ['-'] else []

/-- A number in the layout of data; of two equally near decimals the even one is taken. -/
def dataText (x : Binary64) : List Char :=
  x.signText ++
    if x.isZero then ['0', '.', '0'] else (Decimal.shortest .even x).scientific

/-- A number in the layout of prose; of two equally near decimals the larger one is taken. -/
def proseText (x : Binary64) : List Char :=
  x.signText ++ if x.isZero then ['0'] else (Decimal.shortest .away x).positional

end Binary64

end AirInquiry
