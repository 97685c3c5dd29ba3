import AirInquiry.GraphQL.Name

/-!
# The tokens of a GraphQL text

The lexical grammar of GraphQL: marks, names, numbers, strings and block strings, with blanks,
commas, comments and byte order marks passed over between them. A source character is any Unicode
scalar value. Every token is read as far as it goes, and a number is no number if a digit, a letter,
an underscore or a point stands right behind it.

A reader of one token says how many characters it takes, so that `Token.ofText` gets to the end of
every text. A block string is kept as it is written, with its indentation.
-/

set_option autoImplicit false
set_option relaxedAutoImplicit false

namespace AirInquiry.GraphQL

/-- A token. Numbers are kept as they are written, and a string as the text that it stands for. -/
inductive Token where
  | mark (char : Char)
  | spread
  | name (text : String)
  | integer (text : String)
  | float (text : String)
  | string (text : String)
  | block (text : String)
  deriving DecidableEq, Repr

namespace Token

/-- The marks of one character. -/
def marks : List Char := ['!', '$', '&', '(', ')', ':', '=', '@', '[', ']', '{', '|', '}']

/-- Whether a character is passed over between tokens. -/
def isIgnored (c : Char) : Bool :=
  c = '\t' || c = '\n' || c = '\r' || c = ' ' || c = ',' || c = '\uFEFF'

/-- Whether a character ends a line. -/
def endsLine (c : Char) : Bool := c = '\n' || c = '\r'

/-! ### Strings -/

/-- The value of a hexadecimal digit in either case. -/
def hexDigitValue? (c : Char) : Option Nat :=
  if c.isDigit then some (c.toNat - '0'.toNat)
  else if 'a' ≤ c ∧ c ≤ 'f' then some (c.toNat - 'a'.toNat + 10)
  else if 'A' ≤ c ∧ c ≤ 'F' then some (c.toNat - 'A'.toNat + 10)
  else none

/-- The value of hexadecimal digits, of which there has to be one. -/
def hexValue? (digits : List Char) : Option Nat :=
  if digits.isEmpty then none
  else digits.foldlM (fun value c ↦ (hexDigitValue? c).map (value * 16 + ·)) 0

/-- The character of a code point, if it is a scalar value. -/
def scalar? (code : Nat) : Option Char :=
  if code.isValidChar then some (Char.ofNat code) else none

/-- The character that a pair of surrogates stands for. -/
def paired? (high low : Nat) : Option Char :=
  if 0xd800 ≤ high ∧ high < 0xdc00 ∧ 0xdc00 ≤ low ∧ low < 0xe000 then
    scalar? (0x10000 + (high - 0xd800) * 0x400 + (low - 0xdc00))
  else none

/-- The character of four digits behind `\u`, or of two such escapes for a pair of surrogates, with
the number of characters taken. -/
def fixedEscape? (text : List Char) : Option (Char × Nat) := do
  let code ← if 4 ≤ text.length then hexValue? (text.take 4) else none
  match scalar? code with
  | some c => some (c, 4)
  | none =>
    let low ← if ['\\', 'u'].isPrefixOf (text.drop 4) ∧ 10 ≤ text.length then
      hexValue? ((text.drop 6).take 4) else none
    let c ← paired? code low
    some (c, 10)

/-- The character of any number of digits in braces behind `\u`, with the number of characters
taken. -/
def bracedEscape? (text : List Char) : Option (Char × Nat) := do
  let digits := text.takeWhile (· ≠ '}')
  let code ← if digits.length < text.length then hexValue? digits else none
  let c ← scalar? code
  some (c, digits.length + 1)

/-- The character that the digits behind `\u` stand for, with the number of characters taken. -/
def codeEscape? : List Char → Option (Char × Nat)
  | '{' :: digits => (bracedEscape? digits).map fun (c, count) ↦ (c, 1 + count)
  | digits => fixedEscape? digits

/-- The characters that have an escape of one letter. -/
def letterEscapes : List (Char × Char) :=
  [('"', '"'), ('\\', '\\'), ('/', '/'), ('b', '\x08'), ('f', '\x0c'), ('n', '\n'), ('r', '\r'),
    ('t', '\t')]

/-- The character that the escape at the start of a text stands for, with the number of characters
taken. The backslash of the escape is in front of the text. -/
def escape? : List Char → Option (Char × Nat)
  | [] => none
  | letter :: rest =>
    if letter = 'u' then (codeEscape? rest).map fun (c, count) ↦ (c, 1 + count)
    else (letterEscapes.find? fun entry ↦ entry.1 = letter).map fun entry ↦ (entry.2, 1)

/-- The text of a string up to its closing quotation mark, with the number of characters taken. -/
def stringBody? : List Char → Option (List Char × Nat)
  | [] => none
  | c :: rest =>
    if c = '"' then some ([], 1)
    else if c = '\\' then
      match escape? rest with
      | none => none
      | some (char, count) =>
        (stringBody? (rest.drop count)).map fun (text, more) ↦ (char :: text, 1 + count + more)
    else if endsLine c then none
    else (stringBody? rest).map fun (text, more) ↦ (c :: text, 1 + more)
termination_by text => text.length
decreasing_by
  · simp only [List.length_drop, List.length_cons]
    omega
  · simp

/-- What stands at both ends of a block string. -/
def blockQuote : List Char := ['"', '"', '"']

/-- A block string up to its closing quotation marks, with the number of characters taken. -/
def blockBody? : List Char → Option (List Char × Nat)
  | [] => none
  | c :: rest =>
    if blockQuote.isPrefixOf (c :: rest) then some ([], 3)
    else if c = '\\' ∧ blockQuote.isPrefixOf rest then
      (blockBody? (rest.drop 3)).map fun (text, more) ↦ (blockQuote ++ text, 4 + more)
    else (blockBody? rest).map fun (text, more) ↦ (c :: text, 1 + more)
termination_by text => text.length
decreasing_by
  · simp only [List.length_drop, List.length_cons]
    omega
  · simp

/-- The string or the block string whose first quotation mark is in front of a text, with the number
of characters taken. -/
def string? (text : List Char) : Option (Token × Nat) :=
  if ['"', '"'].isPrefixOf text then
    (blockBody? (text.drop 2)).map fun (body, count) ↦ (.block (String.ofList body), 2 + count)
  else (stringBody? text).map fun (body, count) ↦ (.string (String.ofList body), count)

/-! ### Numbers -/

/-- The digits of the integer part at the start of a text: a zero by itself, or digits of which the
first is none. -/
def wholeDigits? (text : List Char) : Option (List Char) :=
  let digits := text.takeWhile Char.isDigit
  if digits.isEmpty then none
  else if digits.head? = some '0' then some ['0']
  else some digits

/-- The integer part at the start of a text. -/
def integerPart? : List Char → Option (List Char)
  | '-' :: rest => (wholeDigits? rest).map ('-' :: ·)
  | text => wholeDigits? text

/-- The fraction at the start of a text, which is empty if there is none. -/
def fractionPart : List Char → List Char
  | '.' :: rest =>
    let digits := rest.takeWhile Char.isDigit
    if digits.isEmpty then [] else '.' :: digits
  | _ => []

/-- The sign at the start of a text, which is empty if there is none. -/
def signPart : List Char → List Char
  | '+' :: _ => ['+']
  | '-' :: _ => ['-']
  | _ => []

/-- The decimal exponent at the start of a text, which is empty if there is none. -/
def exponentPart : List Char → List Char
  | [] => []
  | c :: rest =>
    let sign := signPart rest
    let digits := (rest.drop sign.length).takeWhile Char.isDigit
    if (c = 'e' ∨ c = 'E') ∧ digits ≠ [] then c :: sign ++ digits else []

/-- Whether a number may end in front of a text. -/
def endsNumber : List Char → Bool
  | [] => true
  | c :: _ => !(c.isDigit || isNameStart c || c = '.')

/-- The number at the start of a text, with the number of characters taken. -/
def number? (text : List Char) : Option (Token × Nat) := do
  let whole ← integerPart? text
  let fraction := fractionPart (text.drop whole.length)
  let exponent := exponentPart (text.drop (whole ++ fraction).length)
  let written := whole ++ fraction ++ exponent
  if endsNumber (text.drop written.length) then
    let token := if fraction.isEmpty && exponent.isEmpty then integer else float
    some (token (String.ofList written), written.length)
  else none

/-! ### Texts -/

/-- The token that starts with `c`, with the number of further characters that it takes. -/
def read? (c : Char) (rest : List Char) : Option (Token × Nat) :=
  if marks.contains c then some (.mark c, 0)
  else if isNameStart c then
    let others := rest.takeWhile isNameRest
    some (.name (String.ofList (c :: others)), others.length)
  else if c = '"' then string? rest
  else if c = '.' then if ['.', '.'].isPrefixOf rest then some (.spread, 2) else none
  else (number? (c :: rest)).map fun (token, count) ↦ (token, count - 1)

/-- The tokens of a text. -/
def ofText : List Char → Option (List Token)
  | [] => some []
  | c :: rest =>
    if isIgnored c then ofText rest
    else if c = '#' then ofText (rest.dropWhile fun c ↦ !endsLine c)
    else
      match read? c rest with
      | none => none
      | some (token, count) => (ofText (rest.drop count)).map (token :: ·)
termination_by text => text.length
decreasing_by
  · simp
  · simpa only [List.length_cons] using
      Nat.lt_succ_of_le (List.dropWhile_sublist (fun c ↦ !endsLine c)).length_le
  · simp only [List.length_drop, List.length_cons]
    omega

end Token

end AirInquiry.GraphQL
