/-!
# Looking for one text in another

`contains` asks for a substring, `splitOn` cuts at every occurrence of one character, and
`truncate` keeps a number of characters.
-/

set_option autoImplicit false
set_option relaxedAutoImplicit false

namespace AirInquiry.Text

/-- Whether `part` stands somewhere in `text`. -/
def containsChars (part : List Char) : List Char → Bool
  | [] => part.isEmpty
  | c :: rest => part.isPrefixOf (c :: rest) || containsChars part rest

/-- Whether `part` stands somewhere in `text`. -/
def contains (text part : String) : Bool := containsChars part.toList text.toList

/-- The pieces of `text` between the occurrences of `mark`; there is one more piece than there
are marks. -/
def splitChars (mark : Char) : List Char → List (List Char)
  | [] => [[]]
  | c :: rest =>
    if c = mark then [] :: splitChars mark rest
    else
      match splitChars mark rest with
      | [] => [[c]]
      | piece :: pieces => (c :: piece) :: pieces

/-- The pieces of `text` between the occurrences of `mark`. -/
def split (mark : Char) (text : String) : List String :=
  (splitChars mark text.toList).map String.ofList

/-- The pieces put together with `separator` between neighbours. -/
def joinChars (separator : List Char) : List (List Char) → List Char
  | [] => []
  | [piece] => piece
  | piece :: rest => piece ++ separator ++ joinChars separator rest

/-- The pieces put together with `separator` between neighbours. -/
def join (separator : String) (pieces : List String) : String :=
  String.ofList (joinChars separator.toList (pieces.map String.toList))

/-- The first `limit` characters of `text`. -/
def truncate (limit : Nat) (text : String) : String := String.ofList (text.toList.take limit)

end AirInquiry.Text
