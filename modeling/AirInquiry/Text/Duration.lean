import AirInquiry.Text.Search

/-!
# Durations in text

A duration is written in the largest unit of which it has at least one, as a decimal fraction with
no zeros at its end.
-/

set_option autoImplicit false
set_option relaxedAutoImplicit false

namespace AirInquiry.Text

/-- A unit of time that lasts `10 ^ digits` nanoseconds. -/
structure TimeUnit where
  digits : Nat
  symbol : String

/-- The units from the largest to the smallest but one. -/
def largerTimeUnits : List TimeUnit := [⟨9, "s"⟩, ⟨6, "ms"⟩, ⟨3, "µs"⟩]

/-- The unit of one nanosecond. -/
def smallestTimeUnit : TimeUnit := ⟨0, "ns"⟩

/-- The unit in which a duration is written. -/
def timeUnitFor (nanoseconds : Nat) : TimeUnit :=
  let fits (timeUnit : TimeUnit) : Bool := Nat.pow 10 timeUnit.digits ≤ nanoseconds
  (largerTimeUnits.find? fits).getD smallestTimeUnit

/-- The digits behind the point of `part` parts of `10 ^ places`, without zeros at the end. -/
def fractionDigits (part places : Nat) : List Char :=
  let digits := Nat.toDigits 10 part
  let padded := List.replicate (places - digits.length) '0' ++ digits
  (padded.reverse.dropWhile (· = '0')).reverse

/-- The text of a duration. -/
def duration (nanoseconds : Nat) : String :=
  let timeUnit := timeUnitFor nanoseconds
  let size := Nat.pow 10 timeUnit.digits
  let fraction := fractionDigits (nanoseconds % size) timeUnit.digits
  toString (nanoseconds / size) ++
    (if fraction.isEmpty then "" else "." ++ String.ofList fraction) ++ timeUnit.symbol

end AirInquiry.Text
