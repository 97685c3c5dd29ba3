/-!
# GraphQL names

A name starts with an underscore or a letter and goes on with underscores, letters and digits, all
of them in ASCII. Field names reach a query as they are, so every field that a filter or an order
mentions carries the proof that it is a name.
-/

set_option autoImplicit false
set_option relaxedAutoImplicit false

namespace AirInquiry.GraphQL

/-- Whether a character may start a name. -/
def isNameStart (c : Char) : Bool := c = '_' || c.isAlpha

/-- Whether a character may stand in a name after its start. -/
def isNameRest (c : Char) : Bool := c = '_' || c.isAlphanum

/-- Whether characters make up a name. -/
def isNameChars : List Char → Bool
  | [] => false
  | c :: rest => isNameStart c && rest.all isNameRest

/-- Whether a text is a name. -/
def isName (text : String) : Bool := isNameChars text.toList

/-- A text that is a name. -/
structure Name where
  text : String
  isName : GraphQL.isName text = true
  deriving DecidableEq

namespace Name

/-- The name that a text is. -/
def ofString? (text : String) : Option Name :=
  if h : GraphQL.isName text = true then some ⟨text, h⟩ else none

@[simp] theorem ofString?_text (name : Name) : ofString? name.text = some name := by
  simp [ofString?, name.isName]

theorem text_of_ofString? {text : String} {name : Name} (h : ofString? text = some name) :
    name.text = text := by
  unfold ofString? at h
  split at h
  · cases h
    rfl
  · cases h

theorem ofString?_eq_none {text : String} :
    ofString? text = none ↔ GraphQL.isName text = false := by
  unfold ofString?
  split <;> simp_all

end Name

end AirInquiry.GraphQL
