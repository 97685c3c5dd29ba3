import AirInquiry.Text.Alphanumeric

/-!
# Phrases in a text

A text mentions a phrase when the phrase stands there by itself, with no letter and no digit next
to it. The text is searched from the left. An occurrence that has a letter or a digit next
to it is passed over as a whole, and the search goes on behind it.
-/

set_option autoImplicit false
set_option relaxedAutoImplicit false

namespace AirInquiry.Text

/-- Whether a neighbouring character, if there is one, leaves a phrase by itself. -/
def leavesApart (neighbour : Option Char) : Bool := !(neighbour.any isAlphanumeric)

/-- Whether `text` mentions `phrase` behind its first `skipped` characters. `before` is the
character in front of `text`. -/
def mentionsFrom (phrase : List Char) : (skipped : Nat) → (before : Option Char) →
    (text : List Char) → Bool
  | 0, before, [] => phrase.isEmpty && leavesApart before
  | _ + 1, _, [] => false
  | skipped + 1, _, c :: rest => mentionsFrom phrase skipped (some c) rest
  | 0, before, c :: rest =>
    if phrase.isPrefixOf (c :: rest) then
      leavesApart before && leavesApart ((c :: rest).drop phrase.length).head? ||
        mentionsFrom phrase (phrase.length - 1) (some c) rest
    else mentionsFrom phrase 0 (some c) rest

/-- Whether `text` mentions `phrase`. -/
def mentions (text phrase : List Char) : Bool := mentionsFrom phrase 0 none text

end AirInquiry.Text
