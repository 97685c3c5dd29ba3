/-!
# Unsigned integers in decimal

A plus sign may stand in front, zeros in front are allowed, and the value lies below a limit. Digits
are looked at from the left, and the first one that fails decides what is wrong.
-/

set_option autoImplicit false
set_option relaxedAutoImplicit false

namespace AirInquiry.Text

/-- Why a text is no unsigned integer below a limit. -/
inductive UnsignedError where
  | empty
  | invalidDigit
  | tooLarge
  deriving DecidableEq, Repr

/-- The wording of what is wrong with an unsigned integer. -/
def UnsignedError.message : UnsignedError → String
  | .empty => "cannot parse integer from empty string"
  | .invalidDigit => "invalid digit found in string"
  | .tooLarge => "number too large to fit in target type"

/-- The value of `digits` after digits of the value `value`. -/
def unsignedFrom (limit value : Nat) : List Char → Except UnsignedError Nat
  | [] => .ok value
  | c :: rest =>
    if ¬ c.isDigit then .error .invalidDigit
    else
      let next := value * 10 + (c.toNat - '0'.toNat)
      if next < limit then unsignedFrom limit next rest else .error .tooLarge

/-- The unsigned integer below `limit` that a text stands for. -/
def unsigned (limit : Nat) : List Char → Except UnsignedError Nat
  | [] => .error .empty
  | ['+'] => .error .invalidDigit
  | '+' :: digits => unsignedFrom limit 0 digits
  | digits => unsignedFrom limit 0 digits

/-- One more than the largest word of 64 bits. -/
def wordLimit : Nat := UInt64.size

end AirInquiry.Text
