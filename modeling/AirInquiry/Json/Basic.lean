import AirInquiry.Number.Shortest

/-!
# JSON values

Integers and fractions are kept apart, so that `1` and `1.0` are different values. The entries of an
object are a list. The operations on them keep the keys in increasing order and free of repetition,
which is the form that reading a text produces; `Json.IsOrdered` states it at every depth.
-/

set_option autoImplicit false
set_option relaxedAutoImplicit false

namespace AirInquiry

/-- A JSON number: an integer of at most 64 bits, or a floating point number. -/
inductive Json.Number where
  | integer (value : Int)
  | float (value : Binary64)
  deriving DecidableEq, Repr

/-- A JSON value. -/
inductive Json where
  | null
  | bool (value : Bool)
  | number (value : Json.Number)
  | string (text : String)
  | array (items : List Json)
  | object (entries : List (String × Json))
  deriving Repr, Inhabited

namespace Json

namespace Number

/-- The text of a number. -/
def text : Number → List Char
  | .integer value =>
    if value < 0 then '-' :: Nat.toDigits 10 value.natAbs else Nat.toDigits 10 value.natAbs
  | .float value => value.dataText

/-- The nearest floating point number. -/
def toBinary64 : Number → Binary64
  | .integer value => Binary64.ofInt value
  | .float value => value

/-- Equality of numbers: an integer never equals a floating point number, and the two floating
point zeros are equal. -/
def equals : Number → Number → Bool
  | .integer a, .integer b => a = b
  | .float a, .float b => a.equals b
  | _, _ => false

end Number

/-- The entries of an object. -/
abbrev Entries := List (String × Json)

namespace Entries

/-- The value under a key. -/
def get? (entries : Entries) (key : String) : Option Json :=
  (entries.find? fun entry ↦ entry.1 = key).map (·.2)

/-- The entries with `value` under `key`, in place of an older value if there is one. -/
def insert (key : String) (value : Json) : Entries → Entries
  | [] => [(key, value)]
  | (other, old) :: rest =>
    if key < other then (key, value) :: (other, old) :: rest
    else if key = other then (key, value) :: rest
    else (other, old) :: insert key value rest

/-- The entries of `newer` put over those of `older`. -/
def union (older newer : Entries) : Entries :=
  newer.foldl (fun entries entry ↦ entries.insert entry.1 entry.2) older

/-- Entries in increasing order from entries in any order; of two values under one key the later
one stays. -/
def ofList (entries : List (String × Json)) : Entries := union [] entries

/-- The keys are in strictly increasing order. -/
def IsSorted (entries : Entries) : Prop := (entries.map (·.1)).Pairwise (· < ·)

end Entries

/-- The object with the given entries, in increasing order of keys. -/
def ofEntries (entries : List (String × Json)) : Json := .object (Entries.ofList entries)

/-- The value of an integer. -/
def ofInt (value : Int) : Json := .number (.integer value)

/-- The value of a natural number. -/
def ofNat (value : Nat) : Json := ofInt value

/-- The list of texts as a value. -/
def ofStrings (texts : List String) : Json := .array (texts.map .string)

/-- An absent value is null. -/
def ofOption {α : Type} (toJson : α → Json) : Option α → Json
  | none => .null
  | some value => toJson value

/-- A boolean's truth value. -/
def asBool? : Json → Option Bool
  | .bool value => some value
  | _ => none

/-- A string's text. -/
def asString? : Json → Option String
  | .string text => some text
  | _ => none

/-- An array's items. -/
def asArray? : Json → Option (List Json)
  | .array items => some items
  | _ => none

/-- An object's entries. -/
def asObject? : Json → Option Entries
  | .object entries => some entries
  | _ => none

/-- A number. -/
def asNumber? : Json → Option Number
  | .number value => some value
  | _ => none

/-- The value under a key of an object; anything else has no keys. -/
def get? : Json → String → Option Json
  | .object entries, key => Entries.get? entries key
  | _, _ => none

/-- Whether the value is null. -/
def isNull : Json → Bool
  | .null => true
  | _ => false

mutual

/-- The keys of every object inside the value are strictly increasing. -/
def IsOrdered : Json → Prop
  | .array items => ItemsOrdered items
  | .object entries => Entries.IsSorted entries ∧ EntriesOrdered entries
  | _ => True
termination_by structural value => value

/-- `IsOrdered` for every item of a list. -/
def ItemsOrdered : List Json → Prop
  | [] => True
  | item :: rest => item.IsOrdered ∧ ItemsOrdered rest
termination_by structural items => items

/-- `IsOrdered` for every value of a list of entries. -/
def EntriesOrdered : List (String × Json) → Prop
  | [] => True
  | (_, value) :: rest => value.IsOrdered ∧ EntriesOrdered rest
termination_by structural entries => entries

end

end Json

end AirInquiry
