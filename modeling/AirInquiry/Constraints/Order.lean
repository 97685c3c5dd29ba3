import AirInquiry.Filter.Error
import AirInquiry.GraphQL.Name

/-!
# Order of rows

A sort key names a field, possibly of a related table, by a path of names, and says in which
direction its values go and where missing values stand.
-/

set_option autoImplicit false
set_option relaxedAutoImplicit false

namespace AirInquiry

/-- A direction of sorting. -/
inductive Direction where
  | ascending
  | descending
  deriving DecidableEq, Repr

/-- Where rows without a value stand. -/
inductive NullPlace where
  | first
  | last
  deriving DecidableEq, Repr

/-- The written form of a direction. -/
def Direction.text : Direction → String
  | .ascending => "asc"
  | .descending => "desc"

/-- The written form of a position. -/
def NullPlace.text : NullPlace → String
  | .first => "first"
  | .last => "last"

/-- Reads a direction. -/
def Direction.ofJson : Json → Except Json.Mismatch Direction :=
  Json.Decode.variant ([.ascending, .descending].map fun direction ↦ (direction.text, direction))

/-- Reads a position. -/
def NullPlace.ofJson : Json → Except Json.Mismatch NullPlace :=
  Json.Decode.variant ([.first, .last].map fun position ↦ (position.text, position))

/-- One key of an order: the path `head.tail…` of names, a direction, and the place of missing
values if it is given. -/
structure SortKey where
  head : GraphQL.Name
  tail : List GraphQL.Name
  direction : Direction
  nulls : Option NullPlace
  deriving DecidableEq

namespace SortKey

/-- The names of the path. -/
def path (item : SortKey) : List GraphQL.Name := item.head :: item.tail

/-- The path with points between its names. -/
def field (item : SortKey) : String := Text.join "." (item.path.map GraphQL.Name.text)

/-- The item that orders by a dotted path. -/
def make (field : String) (direction : Direction) (nulls : Option NullPlace) :
    Except Refusal SortKey :=
  match (Text.split '.' field).mapM GraphQL.Name.ofString? with
  | some (head :: tail) => .ok ⟨head, tail, direction, nulls⟩
  | _ => .error (.notAName field)

/-- The entry for the place of missing values, if it is given. -/
def nullsEntry : Option NullPlace → List (String × Json)
  | none => []
  | some position => [("nulls", .string position.text)]

/-- A sort key as a JSON value. -/
def toJson (item : SortKey) : Json :=
  .object ([("direction", .string item.direction.text), ("field", .string item.field)] ++
    nullsEntry item.nulls)

/-- The parts of a sort key as they are read. -/
structure Draft where
  field : String := ""
  direction : Direction := .ascending
  nulls : Option NullPlace := none

/-- The fields of a sort key's record. -/
def recordFields : List (Json.Decode.Field Draft) :=
  [{ name := "field", required := true,
     read := fun value draft ↦ do return { draft with field := ← Json.Decode.string value } },
   { name := "direction", aliases := ["dir"],
     read := fun value draft ↦ do return { draft with direction := ← Direction.ofJson value } },
   { name := "nulls",
     read := fun value draft ↦ do
       return { draft with nulls := ← Json.Decode.optional NullPlace.ofJson value } }]

/-- Reads a sort key. -/
def ofJson (value : Json) : Except Json.Mismatch SortKey := do
  let draft ← Json.Decode.record "RawOrderItem" recordFields {} value
  (make draft.field draft.direction draft.nulls).mapError Refusal.asMismatch

end SortKey

end AirInquiry
