import AirInquiry.Json.Cursor

/-!
# Reading JSON text

`parse` reads one value and nothing after it. The brackets inside each other are limited in number:
reading recurs on what is left of that allowance, and inside one pair of brackets on a bound for the
number of items, which the length of the text gives. Of two entries under one key the later counts.
-/

set_option autoImplicit false
set_option relaxedAutoImplicit false

namespace AirInquiry.Json

namespace Reader

/-- Moves to the next item of a list, if there is one. -/
def toNextItem (first : Bool) : Reader Bool := do
  match ← peekToken with
  | none => failAhead .endInList
  | some c =>
    if c = ']' then pure false
    else if first then pure true
    else if c = ',' then
      advance
      match ← peekToken with
      | none => failAhead .endInValue
      | some c => if c = ']' then failAhead .trailingComma else pure true
    else failAhead .expectedListCommaOrEnd

/-- Reads items up to the closing bracket, which is read too. `bound` is more than the number of
items. -/
def items {α : Type} (element : Reader α) : (bound : Nat) → List α → Reader (List α)
  | 0, _ => failHere .endInList
  | bound + 1, seen => do
    if ← toNextItem seen.isEmpty then
      let item ← element
      items element bound (item :: seen)
    else
      advance
      pure seen.reverse

/-- Reads the colon after a key. -/
def colon : Reader Unit := do
  match ← peekToken with
  | none => failAhead .endInObject
  | some c => if c = ':' then advance else failAhead .expectedColon

/-- Moves to the next key of an object, if there is one. -/
def toNextKey (first : Bool) : Reader Bool := do
  match ← peekToken with
  | none => failAhead .endInObject
  | some c =>
    if c = '}' then pure false
    else if first then
      if c = '"' then pure true else failAhead .keyMustBeString
    else if c = ',' then
      advance
      match ← peekToken with
      | none => failAhead .endInValue
      | some c =>
        if c = '"' then pure true
        else if c = '}' then failAhead .trailingComma
        else failAhead .keyMustBeString
    else failAhead .expectedObjectCommaOrEnd

/-- Reads entries up to the closing brace, which is read too. -/
def entries (checked : Bool) (element : Reader Json) :
    (bound : Nat) → List (String × Json) → Reader (List (String × Json))
  | 0, _ => failHere .endInObject
  | bound + 1, seen => do
    if ← toNextKey seen.isEmpty then
      let key ← string checked
      colon
      let value ← element
      entries checked element bound ((key, value) :: seen)
    else
      advance
      pure seen.reverse

/-- Reads a value. `inner` reads the values inside its brackets, if it may have brackets. -/
def valueAround (checked : Bool) (inner : Option (Reader Json)) : Reader Json := do
  match ← peekToken with
  | none => failAhead .endInValue
  | some c =>
    if c = 'n' then advance; word "ull".toList; pure .null
    else if c = 't' then advance; word "rue".toList; pure (.bool true)
    else if c = 'f' then advance; word "alse".toList; pure (.bool false)
    else if c = '"' then return .string (← string checked)
    else if c = '-' then advance; return .number (← number checked true)
    else if c.isDigit then return .number (← number checked false)
    else if c = '[' ∨ c = '{' then
      match inner with
      | none => failAhead .tooDeep
      | some inner =>
        advance
        let bound := (← get).rest.length + 1
        if c = '[' then return .array (← items inner bound [])
        else return ofEntries (← entries checked inner bound [])
    else failAhead .expectedValue

/-- Reads a value with at most `depth` brackets inside each other. -/
def value (checked : Bool) : (depth : Nat) → Reader Json
  | 0 => valueAround checked none
  | depth + 1 => valueAround checked (some (value checked depth))

/-- Nothing but blanks is left. -/
def finish : Reader Unit := do
  match ← peekToken with
  | none => pure ()
  | some _ => failAhead .trailingCharacters

/-- Reads a whole text. -/
def run {α : Type} (reader : Reader α) (text : String) : Except Failure α :=
  (reader ⟨text.toList, 0⟩).map (·.1)

end Reader

/-- The number of brackets inside each other that a text may have. -/
def nestingLimit : Nat := 127

/-- What is wrong with a text, and where. -/
structure SyntaxError where
  fault : Fault
  position : Position
  deriving DecidableEq, Repr

/-- The wording of what is wrong with a text. -/
def SyntaxError.message (error : SyntaxError) : String :=
  error.fault.message ++ " at line " ++ toString error.position.line ++
    " column " ++ toString error.position.column

/-- The value that a text stands for, with at most `depth` brackets inside each other. -/
def parseWithin (depth : Nat) (text : String) : Except SyntaxError Json :=
  match (do let value ← Reader.value true depth; Reader.finish; pure value).run text with
  | .ok value => .ok value
  | .error (.malformed fault offset) => .error ⟨fault, Position.of text.toList offset⟩
  | .error .mistyped => .error ⟨.expectedValue, Position.of text.toList 0⟩

/-- The value that a text stands for. -/
def parse (text : String) : Except SyntaxError Json := parseWithin nestingLimit text

end AirInquiry.Json
