/-!
# Sets of characters given by ranges

A property of characters is stored as the increasing list of the closed code point ranges
that have it. `inRanges` decides membership and stops at the first range above the character.
-/

set_option autoImplicit false
set_option relaxedAutoImplicit false

namespace AirInquiry.Text

/-- Whether `code` lies in one of the closed ranges, which are listed in increasing order. -/
def inRanges : List (Nat × Nat) → Nat → Bool
  | [], _ => false
  | (low, high) :: rest, code =>
    if code < low then false else if code ≤ high then true else inRanges rest code

end AirInquiry.Text
