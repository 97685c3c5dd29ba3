import AirInquiry.Text.Ranges

/-!
# Blank characters and trimming

`isBlank` is the `White_Space` property. `trim` drops blank characters at both ends, and a text
is blank when nothing is left of it.
-/

set_option autoImplicit false
set_option relaxedAutoImplicit false

namespace AirInquiry.Text

/-- The characters with the `White_Space` property. -/
def blankRanges : List (Nat × Nat) := [
  (0x9, 0xd), (0x20, 0x20), (0x85, 0x85), (0xa0, 0xa0), (0x1680, 0x1680), (0x2000, 0x200a),
  (0x2028, 0x2029), (0x202f, 0x202f), (0x205f, 0x205f), (0x3000, 0x3000)]

/-- Whether a character is white space. -/
def isBlank (c : Char) : Bool := inRanges blankRanges c.toNat

/-- `text` without the blank characters at its start. -/
def trimStart (text : List Char) : List Char := text.dropWhile isBlank

/-- `text` without the blank characters at its start and at its end. -/
def trimChars (text : List Char) : List Char :=
  (trimStart (trimStart text).reverse).reverse

/-- `text` without the blank characters at its start and at its end. -/
def trim (text : String) : String := String.ofList (trimChars text.toList)

/-- Whether `text` holds no character other than blank ones. -/
def isBlankText (text : String) : Bool := text.toList.all isBlank

end AirInquiry.Text
