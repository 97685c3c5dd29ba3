import AirInquiry.Json.Basic

/-!
# Reading tokens of JSON text

A cursor holds the text still to read and the number of bytes read. A fault is reported at a byte
offset, from which `Position.of` finds line and column. Strings and numbers are read here; the
brackets around them are read by `AirInquiry.Json.Parser`.

Reading can be `checked` or not. Text that is skipped is not checked: an escape may then name half
of a surrogate pair, and a number may be too large.
-/

set_option autoImplicit false
set_option relaxedAutoImplicit false

namespace AirInquiry.Json

/-- What can be wrong with a JSON text. -/
inductive Fault where
  | endInList
  | endInObject
  | endInString
  | endInValue
  | expectedColon
  | expectedListCommaOrEnd
  | expectedObjectCommaOrEnd
  | expectedWord
  | expectedValue
  | invalidEscape
  | invalidNumber
  | numberOutOfRange
  | controlCharacterInString
  | keyMustBeString
  | loneSurrogate
  | trailingComma
  | trailingCharacters
  | unfinishedSurrogatePair
  | tooDeep
  deriving DecidableEq, Repr

/-- The wording of a fault. -/
def Fault.message : Fault → String
  | .endInList => "EOF while parsing a list"
  | .endInObject => "EOF while parsing an object"
  | .endInString => "EOF while parsing a string"
  | .endInValue => "EOF while parsing a value"
  | .expectedColon => "expected `:`"
  | .expectedListCommaOrEnd => "expected `,` or `]`"
  | .expectedObjectCommaOrEnd => "expected `,` or `\x7d`"
  | .expectedWord => "expected ident"
  | .expectedValue => "expected value"
  | .invalidEscape => "invalid escape"
  | .invalidNumber => "invalid number"
  | .numberOutOfRange => "number out of range"
  | .controlCharacterInString =>
    "control character (\\u0000-\\u001F) found while parsing a string"
  | .keyMustBeString => "key must be a string"
  | .loneSurrogate => "lone leading surrogate in hex escape"
  | .trailingComma => "trailing comma"
  | .trailingCharacters => "trailing characters"
  | .unfinishedSurrogatePair => "unexpected end of hex escape"
  | .tooDeep => "recursion limit exceeded"

/-- The text still to read and the number of bytes already read. -/
structure Cursor where
  rest : List Char
  offset : Nat
  deriving Repr

/-- Why a text could not be read: it is no JSON text from some byte on, or it is one that does not
have the wanted shape. -/
inductive Failure where
  | malformed (fault : Fault) (offset : Nat)
  | mistyped
  deriving DecidableEq, Repr

/-- A step that reads from a cursor and moves it. -/
abbrev Reader (α : Type) := StateT Cursor (Except Failure) α

namespace Reader

/-- A fault at the cursor. -/
def failHere {α : Type} (fault : Fault) : Reader α :=
  fun cursor ↦ .error (.malformed fault cursor.offset)

/-- A fault at the byte after the cursor. -/
def failAhead {α : Type} (fault : Fault) : Reader α :=
  fun cursor ↦ .error (.malformed fault (cursor.offset + 1))

/-- The text has another shape than the wanted one. -/
def failShape {α : Type} : Reader α := fun _ ↦ .error .mistyped

/-- The next character, which stays unread. -/
def peek : Reader (Option Char) := fun cursor ↦ .ok (cursor.rest.head?, cursor)

/-- Moves past one character. -/
def advance : Reader Unit := fun cursor ↦
  match cursor.rest with
  | [] => .ok ((), cursor)
  | c :: rest => .ok ((), ⟨rest, cursor.offset + c.utf8Size⟩)

/-- Moves past the blanks that JSON allows between tokens. -/
def skipBlanks : Reader Unit := fun cursor ↦
  let blank (c : Char) : Bool := c = ' ' || c = '\n' || c = '\t' || c = '\r'
  .ok ((), ⟨cursor.rest.dropWhile blank, cursor.offset + (cursor.rest.takeWhile blank).length⟩)

/-- The next character after blanks, which stays unread. -/
def peekToken : Reader (Option Char) := do skipBlanks; peek

/-- Reads the rest of a word whose first letter is known. -/
def word : List Char → Reader Unit
  | [] => pure ()
  | expected :: more => do
    match ← peek with
    | none => failHere .endInValue
    | some c => if c = expected then advance; word more else failAhead .expectedWord

/-- The value of a hexadecimal digit. -/
def hexDigit? (c : Char) : Option Nat :=
  if '0' ≤ c ∧ c ≤ '9' then some (c.toNat - '0'.toNat)
  else if 'a' ≤ c ∧ c ≤ 'f' then some (c.toNat - 'a'.toNat + 10)
  else if 'A' ≤ c ∧ c ≤ 'F' then some (c.toNat - 'A'.toNat + 10)
  else none

/-- The value of four hexadecimal digits. -/
def hexValue? (a b c d : Char) : Option Nat := do
  let a ← hexDigit? a
  let b ← hexDigit? b
  let c ← hexDigit? c
  let d ← hexDigit? d
  pure (((a * 16 + b) * 16 + c) * 16 + d)

/-- The number of bytes of a text. -/
def byteCount (text : List Char) : Nat := text.foldl (fun count c ↦ count + c.utf8Size) 0

/-- The failure of a text that stands where four hexadecimal digits should. -/
def hexFailure (rest : List Char) (offset : Nat) : Failure :=
  if byteCount rest < 4 then .malformed .endInString (offset + byteCount rest)
  else .malformed .invalidEscape (offset + 4)

/-- The character that an escape of one letter stands for. -/
def shortEscape? (c : Char) : Option Char :=
  if c = '"' ∨ c = '\\' ∨ c = '/' then some c
  else if c = 'b' then some (Char.ofNat 0x08)
  else if c = 'f' then some (Char.ofNat 0x0c)
  else if c = 'n' then some '\n'
  else if c = 'r' then some '\r'
  else if c = 't' then some '\t'
  else none

/-- Reads a string up to its closing quotation mark. `seen` holds the characters read so far in
reverse. -/
def stringFrom (checked : Bool) (seen : List Char) :
    List Char → Nat → Except Failure (String × Cursor)
  | [], offset => .error (.malformed .endInString offset)
  | c :: rest, offset =>
    if c = '"' then .ok (String.ofList seen.reverse, ⟨rest, offset + 1⟩)
    else if c = '\\' then
      match rest with
      | [] => .error (.malformed .endInString (offset + 1))
      | letter :: rest =>
        if letter = 'u' then
          match rest with
          | a :: b :: c :: d :: rest =>
            match hexValue? a b c d with
            | none => .error (hexFailure (a :: b :: c :: d :: rest) (offset + 2))
            | some unit =>
              if ¬ checked ∨ unit < 0xd800 ∨ 0xdfff < unit then
                stringFrom checked (Char.ofNat unit :: seen) rest (offset + 6)
              else if 0xdc00 ≤ unit then .error (.malformed .loneSurrogate (offset + 6))
              else
                match rest with
                | [] => .error (.malformed .endInString (offset + 6))
                | slash :: rest =>
                  if slash ≠ '\\' then
                    .error (.malformed .unfinishedSurrogatePair (offset + 7))
                  else
                    match rest with
                    | [] => .error (.malformed .endInString (offset + 7))
                    | letter :: rest =>
                      if letter ≠ 'u' then
                        .error (.malformed .unfinishedSurrogatePair (offset + 8))
                      else
                        match rest with
                        | a :: b :: c :: d :: rest =>
                          match hexValue? a b c d with
                          | none => .error (hexFailure (a :: b :: c :: d :: rest) (offset + 8))
                          | some low =>
                            if low < 0xdc00 ∨ 0xdfff < low then
                              .error (.malformed .loneSurrogate (offset + 12))
                            else
                              let code := (unit - 0xd800) * 0x400 + (low - 0xdc00) + 0x10000
                              stringFrom checked (Char.ofNat code :: seen) rest (offset + 12)
                        | short => .error (hexFailure short (offset + 8))
          | short => .error (hexFailure short (offset + 2))
        else
          match shortEscape? letter with
          | some c => stringFrom checked (c :: seen) rest (offset + 2)
          | none => .error (.malformed .invalidEscape (offset + 2))
    else if c.toNat < 0x20 then .error (.malformed .controlCharacterInString (offset + 1))
    else stringFrom checked (c :: seen) rest (offset + c.utf8Size)

/-- Reads a string whose opening quotation mark stands at the cursor. -/
def string (checked : Bool) : Reader String := do
  advance
  fun cursor ↦ stringFrom checked [] cursor.rest cursor.offset

/-- Reads decimal digits as far as they go. -/
def digits : Reader (List Nat) := fun cursor ↦
  let run := cursor.rest.takeWhile Char.isDigit
  .ok (run.map fun c ↦ c.toNat - '0'.toNat,
    ⟨cursor.rest.drop run.length, cursor.offset + run.length⟩)

/-- The limit below which the digits of a number are kept. -/
def significandLimit : Nat := UInt64.size

/-- The digits before the point, kept while they fit, and the number of digits given up. -/
def absorbWhole (digits : List Nat) : Nat × Nat :=
  digits.foldl (fun (significand, dropped) digit ↦
    if dropped = 0 ∧ significand * 10 + digit < significandLimit then
      (significand * 10 + digit, 0)
    else (significand, dropped + 1)) (0, 0)

/-- The digits after the point, kept while they fit; each one kept lowers the exponent. -/
def absorbFraction (significand : Nat) : List Nat → Nat × Nat
  | [] => (significand, 0)
  | digit :: rest =>
    if significand * 10 + digit < significandLimit then
      let (significand, count) := absorbFraction (significand * 10 + digit) rest
      (significand, count + 1)
    else (significand, 0)

/-- The largest exponent that is read. -/
def exponentLimit : Nat := 2147483647

/-- The number of leading digits after which a decimal number exceeds the exponent limit. -/
def digitsToLimit (value count : Nat) : List Nat → Option Nat
  | [] => none
  | digit :: rest =>
    if exponentLimit < value * 10 + digit then some (count + 1)
    else digitsToLimit (value * 10 + digit) (count + 1) rest

/-- The number with the given parts, if it is not too large. -/
def float (checked negative : Bool) (significand : Nat) (exponent : Int) : Reader Number :=
  match Binary64.ofDecimal? negative significand exponent with
  | some value => pure (.float value)
  | none => if checked then failHere .numberOutOfRange else pure (.float Binary64.zero)

/-- Reads the exponent of a number and gives the number. -/
def exponentPart (checked negative : Bool) (significand : Nat) (exponent : Int) :
    Reader Number := do
  advance
  let sign ← peek
  let negativeExponent := sign = some '-'
  if sign = some '+' ∨ sign = some '-' then advance
  match ← peek with
  | none => failHere .endInValue
  | some c =>
    if ¬ c.isDigit then failAhead .invalidNumber
    else
      let start ← get
      let exponentDigits ← digits
      match digitsToLimit 0 0 exponentDigits with
      | some count =>
        if checked ∧ significand ≠ 0 ∧ ¬ negativeExponent then
          throw (.malformed .numberOutOfRange (start.offset + count))
        else
          pure (.float (if negative then Binary64.zero.negate else Binary64.zero))
      | none =>
        let power := (exponentDigits.foldl (fun value digit ↦ value * 10 + digit) 0 : Nat)
        float checked negative significand
          (if negativeExponent then exponent - power else exponent + power)

/-- Reads what follows the digits before the point and gives the number. -/
def numberTail (checked negative : Bool) (significand dropped : Nat) : Reader Number := do
  match ← peek with
  | some '.' =>
    advance
    let fraction ← digits
    if fraction.isEmpty then
      failAhead (if (← peek).isNone then .endInValue else .invalidNumber)
    else
      let (significand, count) := absorbFraction significand fraction
      let exponent : Int := (dropped : Int) - count
      match ← peek with
      | some 'e' | some 'E' => exponentPart checked negative significand exponent
      | _ => float checked negative significand exponent
  | some 'e' | some 'E' => exponentPart checked negative significand dropped
  | _ =>
    if dropped ≠ 0 then float checked negative significand dropped
    else if ¬ negative then pure (.integer significand)
    else if significand = 0 ∨ Nat.pow 2 63 < significand then
      pure (.float (Binary64.ofInt significand).negate)
    else pure (.integer (-(significand : Int)))

/-- Reads a number after its sign. A number has no zeros in front. -/
def number (checked negative : Bool) : Reader Number := do
  match ← peek with
  | none => failHere .endInValue
  | some c =>
    if c = '0' then
      advance
      match ← peek with
      | some next =>
        if next.isDigit then failAhead .invalidNumber else numberTail checked negative 0 0
      | none => numberTail checked negative 0 0
    else if c.isDigit then
      let (significand, dropped) := absorbWhole (← digits)
      numberTail checked negative significand dropped
    else failAhead .invalidNumber

end Reader

/-- A place in a text. Lines count from one, and columns count the bytes before the place. -/
structure Position where
  line : Nat
  column : Nat
  deriving DecidableEq, Repr

/-- The place of the byte `target`, reading on at the byte `offset` of the given line. -/
def Position.find (target line lineStart : Nat) : List Char → Nat → Position
  | [], offset => ⟨line, min target offset - lineStart⟩
  | c :: rest, offset =>
    if target ≤ offset then ⟨line, target - lineStart⟩
    else if c = '\n' then find target (line + 1) (offset + 1) rest (offset + 1)
    else find target line lineStart rest (offset + c.utf8Size)

/-- The place of a byte of a text; a byte past the end stands for the end. -/
def Position.of (text : List Char) (offset : Nat) : Position := find offset 1 0 text 0

end AirInquiry.Json
