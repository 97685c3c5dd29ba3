import AirInquiry.Text.Hidden

/-!
# Quoted text for diagnostics

A message that names a text shows it between quotation marks, so that blank ends and characters
that do not show by themselves stay visible. A quotation mark, a backslash and the usual control
characters are written with a backslash, every other hidden character by its code point.
-/

set_option autoImplicit false
set_option relaxedAutoImplicit false

namespace AirInquiry.Text

/-- A code point in hexadecimal, without leading zeros. -/
def codePointEscape (c : Char) : List Char :=
  ['\\', 'u', '{'] ++ Nat.toDigits 16 c.toNat ++ ['}']

/-- One character as it is shown between quotation marks. -/
def quotedChar (c : Char) : List Char :=
  if c = '"' then ['\\', '"']
  else if c = '\\' then ['\\', '\\']
  else if c = '\n' then ['\\', 'n']
  else if c = '\r' then ['\\', 'r']
  else if c = '\t' then ['\\', 't']
  else if c.toNat = 0 then ['\\', '0']
  else if isHidden c then codePointEscape c
  else [c]

/-- A text between quotation marks, with the characters that would not show written out. -/
def quoted (text : String) : String :=
  String.ofList ('"' :: text.toList.flatMap quotedChar ++ ['"'])

end AirInquiry.Text
