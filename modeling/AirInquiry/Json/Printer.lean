import AirInquiry.Json.Basic
import AirInquiry.Text.Search

/-!
# Writing JSON

`compact` writes a value without any blank, `pretty` with one item to a line and two blanks for each
level. Both list the entries of an object in their given order. Inside strings a quotation mark, a
backslash and the control characters are escaped and everything else stands for itself.
-/

set_option autoImplicit false
set_option relaxedAutoImplicit false

namespace AirInquiry.Json

/-- The hexadecimal digits of a number below 65536, four of them. -/
def fourHexDigits (code : Nat) : List Char :=
  let digits := Nat.toDigits 16 code
  List.replicate (4 - digits.length) '0' ++ digits

/-- One character inside a string. -/
def escapedChar (c : Char) : List Char :=
  if c = '"' then ['\\', '"']
  else if c = '\\' then ['\\', '\\']
  else if c = '\n' then ['\\', 'n']
  else if c = '\r' then ['\\', 'r']
  else if c = '\t' then ['\\', 't']
  else if c.toNat = 0x08 then ['\\', 'b']
  else if c.toNat = 0x0c then ['\\', 'f']
  else if c.toNat < 0x20 then '\\' :: 'u' :: fourHexDigits c.toNat
  else [c]

/-- A string with its quotation marks. -/
def stringText (text : String) : List Char :=
  '"' :: text.toList.flatMap escapedChar ++ ['"']

/-- A scalar or null. -/
def boolText (value : Bool) : List Char := if value then "true".toList else "false".toList

mutual

/-- A value without blanks. -/
def compactText : Json → List Char
  | .null => "null".toList
  | .bool value => boolText value
  | .number value => value.text
  | .string text => stringText text
  | .array items => '[' :: Text.joinChars [','] (compactItems items) ++ [']']
  | .object entries => '{' :: Text.joinChars [','] (compactEntries entries) ++ ['}']
termination_by structural value => value

/-- The texts of the items of a list. -/
def compactItems : List Json → List (List Char)
  | [] => []
  | item :: rest => compactText item :: compactItems rest
termination_by structural items => items

/-- The texts of the entries of an object. -/
def compactEntries : List (String × Json) → List (List Char)
  | [] => []
  | (key, value) :: rest => (stringText key ++ ':' :: compactText value) :: compactEntries rest
termination_by structural entries => entries

end

/-- A value without blanks. -/
def compact (value : Json) : String := String.ofList (compactText value)

/-- A new line at a level. -/
def newLine (level : Nat) : List Char := '\n' :: List.replicate (2 * level) ' '

/-- Parts in brackets, one to a line; no part leaves the brackets together. -/
def bracketed (opening closing : Char) (level : Nat) (parts : List (List Char)) : List Char :=
  if parts.isEmpty then [opening, closing]
  else
    opening :: newLine (level + 1) ++ Text.joinChars (',' :: newLine (level + 1)) parts ++
      newLine level ++ [closing]

mutual

/-- A value with one item to a line, inside `level` levels. -/
def prettyText (level : Nat) : Json → List Char
  | .null => "null".toList
  | .bool value => boolText value
  | .number value => value.text
  | .string text => stringText text
  | .array items => bracketed '[' ']' level (prettyItems (level + 1) items)
  | .object entries => bracketed '{' '}' level (prettyEntries (level + 1) entries)
termination_by structural value => value

/-- The texts of the items of a list. -/
def prettyItems (level : Nat) : List Json → List (List Char)
  | [] => []
  | item :: rest => prettyText level item :: prettyItems level rest
termination_by structural items => items

/-- The texts of the entries of an object. -/
def prettyEntries (level : Nat) : List (String × Json) → List (List Char)
  | [] => []
  | (key, value) :: rest =>
    (stringText key ++ ':' :: ' ' :: prettyText level value) :: prettyEntries level rest
termination_by structural entries => entries

end

/-- A value with one item to a line. -/
def pretty (value : Json) : String := String.ofList (prettyText 0 value)

end AirInquiry.Json
