import AirInquiry.Text.Lowercase.Table
import AirInquiry.Text.Ranges

/-!
# Lower case

Every character has a lower case form of its own, with one exception: a capital sigma becomes a
final sigma where it ends a word. A sigma ends a word when a cased character stands before it and
none after it, where characters that case ignores are looked through on both sides.
-/

set_option autoImplicit false
set_option relaxedAutoImplicit false

namespace AirInquiry.Text

/-- The lower case code point of `code` under the first run that moves it. -/
def lowercaseCode : List CaseRun → Nat → Nat
  | [], code => code
  | run :: rest, code =>
    if code < run.first then code
    else if code ≤ run.last ∧ (code - run.first) % run.step = 0 then
      ((code : Int) + run.distance).toNat
    else lowercaseCode rest code

/-- The lower case form of one character, whatever surrounds it. Only the dotted capital I has a
form of two characters. -/
def lowercaseChar (c : Char) : List Char :=
  if c.toNat = 0x130 then ['i', Char.ofNat 0x307]
  else [Char.ofNat (lowercaseCode lowercaseRuns c.toNat)]

/-- Whether the first character that case does not ignore is a cased one. -/
def startsCased (text : List Char) : Bool :=
  match text.dropWhile (fun c ↦ inRanges caseIgnorableRanges c.toNat) with
  | [] => false
  | c :: _ => inRanges casedRanges c.toNat

/-- The lower case form of `text`, where `before` holds the characters in front of it in reverse. -/
def lowercaseAfter (before : List Char) : List Char → List Char
  | [] => []
  | c :: rest =>
    if c = 'Σ' then
      (if startsCased before && !startsCased rest then 'ς' else 'σ') ::
        lowercaseAfter (c :: before) rest
    else lowercaseChar c ++ lowercaseAfter (c :: before) rest

/-- The lower case form of a text. -/
def lowercaseChars (text : List Char) : List Char := lowercaseAfter [] text

/-- The lower case form of a text. -/
def lowercase (text : String) : String := String.ofList (lowercaseChars text.toList)

end AirInquiry.Text
