import AirInquiry.GraphQL.Name
import AirInquiry.Json.Printer

/-!
# GraphQL queries

The part of GraphQL that a lookup uses: one anonymous query with one root field, its arguments, and
a selection of fields inside it. Values are constants. `Query.text` writes a query; a root field is
written as it is given, so the text is a query exactly when the root is a name.
-/

set_option autoImplicit false
set_option relaxedAutoImplicit false

namespace AirInquiry.GraphQL

/-- A constant. A number is kept as it is written. -/
inductive Value where
  | null
  | boolean (value : Bool)
  | number (token : String)
  | string (text : String)
  | word (name : String)
  | list (items : List Value)
  | object (fields : List (String × Value))

/-- A selected field with the fields selected inside it. -/
inductive Selection where
  | field (name : Name) (inner : List Selection)

/-- A query for one root field. -/
structure Query where
  root : String
  arguments : List (String × Value)
  selection : List Selection

namespace Value

mutual

/-- The constant that a JSON value stands for. Entries whose keys are no names are left out. -/
def ofJson : Json → Value
  | .null => .null
  | .bool value => .boolean value
  | .number value => .number (String.ofList value.text)
  | .string text => .string text
  | .array items => .list (itemsOfJson items)
  | .object entries => .object (fieldsOfJson entries)
termination_by structural value => value

/-- The constants that the items of a list stand for. -/
def itemsOfJson : List Json → List Value
  | [] => []
  | item :: rest => ofJson item :: itemsOfJson rest
termination_by structural items => items

/-- The fields that the entries with names for keys stand for. -/
def fieldsOfJson : List (String × Json) → List (String × Value)
  | [] => []
  | (key, value) :: rest =>
    if isName key then (key, ofJson value) :: fieldsOfJson rest else fieldsOfJson rest
termination_by structural entries => entries

end

/-- The upper case form of a hexadecimal digit. -/
def upperHexDigit (c : Char) : Char := c.toUpper

/-- Whether a character is a control character. -/
def isControl (c : Char) : Bool := c.toNat < 0x20 || 0x7f ≤ c.toNat && c.toNat ≤ 0x9f

/-- One character inside a string. -/
def escapedChar (c : Char) : List Char :=
  if c = '"' then ['\\', '"']
  else if c = '\\' then ['\\', '\\']
  else if c = '\n' then ['\\', 'n']
  else if c = '\r' then ['\\', 'r']
  else if c = '\t' then ['\\', 't']
  else if isControl c then
    '\\' :: 'u' :: (Json.fourHexDigits c.toNat).map upperHexDigit
  else [c]

/-- A string with its quotation marks. -/
def quotedText (text : String) : List Char :=
  '"' :: text.toList.flatMap escapedChar ++ ['"']

/-- What stands between neighbours of a list. -/
def separator : List Char := [',', ' ']

mutual

/-- The text of a constant. -/
def text : Value → List Char
  | .null => "null".toList
  | .boolean value => Json.boolText value
  | .number token => token.toList
  | .string text => quotedText text
  | .word name => name.toList
  | .list items => '[' :: Text.joinChars separator (itemTexts items) ++ [']']
  | .object fields => '{' :: Text.joinChars separator (fieldTexts fields) ++ ['}']
termination_by structural value => value

/-- The texts of the items of a list. -/
def itemTexts : List Value → List (List Char)
  | [] => []
  | item :: rest => text item :: itemTexts rest
termination_by structural items => items

/-- The texts of the fields of an object. -/
def fieldTexts : List (String × Value) → List (List Char)
  | [] => []
  | (key, value) :: rest => (key.toList ++ ':' :: ' ' :: text value) :: fieldTexts rest
termination_by structural fields => fields

end

end Value

namespace Selection

mutual

/-- The text of a selected field. -/
def text : Selection → List Char
  | .field name inner =>
    match inner with
    | [] => name.text.toList
    | first :: rest =>
      name.text.toList ++ " \x7b ".toList ++
        Text.joinChars [' '] (text first :: texts rest) ++ " \x7d".toList
termination_by structural selection => selection

/-- The texts of selected fields. -/
def texts : List Selection → List (List Char)
  | [] => []
  | first :: rest => text first :: texts rest
termination_by structural selections => selections

end

end Selection

namespace Query

/-- The root field with its arguments in parentheses, if there are any. -/
def head (query : Query) : List Char :=
  if query.arguments.isEmpty then query.root.toList
  else
    query.root.toList ++
      '(' :: Text.joinChars Value.separator (Value.fieldTexts query.arguments) ++ [')']

/-- The text of a query. -/
def textChars (query : Query) : List Char :=
  "query \x7b\n  ".toList ++ query.head ++ " \x7b\n    ".toList ++
    Text.joinChars [' '] (Selection.texts query.selection) ++ "\n  \x7d\n\x7d".toList

/-- The text of a query. -/
def text (query : Query) : String := String.ofList query.textChars

end Query

/-- The text of the constant that a JSON value stands for. -/
def literal (value : Json) : String := String.ofList (Value.ofJson value).text

end AirInquiry.GraphQL
