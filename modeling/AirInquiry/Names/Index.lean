import AirInquiry.Text.Alphanumeric
import AirInquiry.Text.Blank
import AirInquiry.Text.Lowercase
import AirInquiry.Text.Search

/-!
# Known names

A text is cut into words in lower case, and a known name is found in it as a run of neighbouring
words. The leftmost run counts, and of the runs that start there the longest.

Names are known under keys: their words with a blank between neighbours. A key leads to the place of
the last name that has it, and the place to the name as it is shown.
-/

set_option autoImplicit false
set_option relaxedAutoImplicit false

namespace AirInquiry

namespace Text

/-- Whether a character belongs to a word. -/
def isWordChar (c : Char) : Bool := isAlphanumeric c || c = '_'

/-- The maximal runs of word characters; `current` holds the run read so far in reverse. -/
def wordRuns (current : List Char) : List Char → List (List Char)
  | [] => if current.isEmpty then [] else [current.reverse]
  | c :: rest =>
    if isWordChar c then wordRuns (c :: current) rest
    else if current.isEmpty then wordRuns [] rest
    else current.reverse :: wordRuns [] rest

/-- The words of a text in lower case. -/
def words (text : String) : List String :=
  (wordRuns [] text.toList).map fun run ↦ String.ofList (lowercaseChars run)

end Text

/-- A known name with its place in the list it came from, and the key under which it is found. -/
structure KnownName where
  id : Nat
  name : String
  key : String
  deriving DecidableEq, Repr

/-- The known names. -/
structure NameIndex where
  known : List KnownName
  deriving DecidableEq, Repr

namespace NameIndex

/-- The largest number of words in a run. -/
def runLimit : Nat := 6

/-- The key that words make up. -/
def keyOfWords (words : List String) : String := Text.join " " words

/-- A name at a place of the list, unless its key is empty. -/
def knownNameOf (entry : String × Nat) : Option KnownName :=
  let name := Text.trim entry.1
  let key := keyOfWords (Text.words name)
  if key.isEmpty then none else some ⟨entry.2, name, key⟩

/-- The index of a list of names. -/
def ofNames (names : List String) : NameIndex := ⟨names.zipIdx.filterMap knownNameOf⟩

/-- The index without names. -/
def empty : NameIndex := ⟨[]⟩

/-- The distinct keys under which names are known. -/
def keys (index : NameIndex) : List String := (index.known.map KnownName.key).eraseDups

/-- The number of different keys. -/
def size (index : NameIndex) : Nat := index.keys.length

/-- Whether no name is known. -/
def isEmpty (index : NameIndex) : Bool := index.known.isEmpty

/-- The place that a key leads to, which is that of the last name with this key. -/
def placeOf (index : NameIndex) (key : String) : Option Nat :=
  (index.known.reverse.find? fun known ↦ known.key = key).map KnownName.id

/-- The name from a place of the list, as it is shown. -/
def shownAt (index : NameIndex) (place : Nat) : Option String :=
  (index.known.find? fun known ↦ known.id = place).map KnownName.name

/-- The name that a key stands for. -/
def nameOf (index : NameIndex) (key : String) : Option String :=
  (index.placeOf key).bind index.shownAt

/-- The name that the longest run of at most `length` words at the start of `words` makes up. -/
def nameOfRun (index : NameIndex) (words : List String) : (length : Nat) → Option String
  | 0 => none
  | length + 1 =>
    match index.nameOf (keyOfWords (words.take (length + 1))) with
    | some name => some name
    | none => nameOfRun index words length

/-- The name at the leftmost run that is one. -/
def firstAmong (index : NameIndex) : List String → Option String
  | [] => none
  | word :: rest =>
    match index.nameOfRun (word :: rest) (min runLimit (rest.length + 1)) with
    | some name => some name
    | none => firstAmong index rest

/-- The known name that a text mentions first. -/
def firstMention (index : NameIndex) (text : String) : Option String :=
  index.firstAmong (Text.words text)

end NameIndex

end AirInquiry
