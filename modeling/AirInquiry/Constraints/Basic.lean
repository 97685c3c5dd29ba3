import AirInquiry.Constraints.Order
import AirInquiry.Filter.Basic

/-!
# Constraints of a query

A filter, an order, a limit and an offset, each of which may be missing. No group of the filter is
empty, a limit is positive, and limit and offset are words of 32 bits. An order without items is the
same as no order. `Constraints.make` brings raw parts into this form or refuses them.
-/

set_option autoImplicit false
set_option relaxedAutoImplicit false

namespace AirInquiry

/-- What a query asks for besides its fields. -/
structure Constraints where
  filter : Option Filter
  sortKeys : List SortKey
  limit : Option UInt32
  offset : Option UInt32
  filter_isPruned : ∀ kept ∈ filter, kept.IsPruned
  limit_pos : ∀ count ∈ limit, 0 < count

namespace Constraints

/-- Whether nothing is constrained. -/
def isEmpty (constraints : Constraints) : Bool :=
  constraints.filter.isNone && constraints.sortKeys.isEmpty && constraints.limit.isNone &&
    constraints.offset.isNone

/-- A positive word from an integer, if it is one. -/
def limitOf (value : Int) : Except Refusal { count : UInt32 // 0 < count } :=
  let count := UInt32.ofNat value.toNat
  if h : 0 < value ∧ value < UInt32.size ∧ 0 < count then .ok ⟨count, h.2.2⟩
  else .error (.limitOutOfRange value)

/-- A word from an integer, if it is one. -/
def offsetOf (value : Int) : Except Refusal UInt32 :=
  if 0 ≤ value ∧ value < UInt32.size then .ok (UInt32.ofNat value.toNat)
  else .error (.offsetOutOfRange value)

/-- Constraints from raw parts, where the limit is looked at before the offset. -/
def make (filter : Option Filter) (sortKeys : List SortKey) (limit offset : Option Int) :
    Except Refusal Constraints := do
  let limit ← limit.mapM limitOf
  let offset ← offset.mapM offsetOf
  .ok {
    filter := filter.bind Filter.prune
    sortKeys := sortKeys
    limit := limit.map Subtype.val
    offset := offset
    filter_isPruned := by
      intro kept h
      obtain ⟨_, _, h⟩ := Option.bind_eq_some_iff.mp h
      exact Filter.isPruned_of_prune h
    limit_pos := by
      intro count h
      obtain ⟨word, _, rfl⟩ := Option.map_eq_some_iff.mp h
      exact word.2 }

/-- The entry under a key, if there is a value for it. -/
def entryOf {α : Type} (key : String) (toJson : α → Json) : Option α → List (String × Json)
  | none => []
  | some value => [(key, toJson value)]

/-- The order as a value, if there is one. -/
def presentSortKeys? (constraints : Constraints) : Option (List SortKey) :=
  if constraints.sortKeys.isEmpty then none else some constraints.sortKeys

/-- Constraints as a JSON value; what is missing is left out. -/
def toJson (constraints : Constraints) : Json :=
  .object (entryOf "limit" (fun count : UInt32 ↦ Json.ofNat count.toNat) constraints.limit ++
    entryOf "offset" (fun count : UInt32 ↦ Json.ofNat count.toNat) constraints.offset ++
    entryOf "order_by" (fun items : List SortKey ↦ .array (items.map SortKey.toJson))
      constraints.presentSortKeys? ++
    entryOf "where" Filter.toJson constraints.filter)

/-- The parts of constraints as they are read. The filter stays a JSON value until all parts are
there. -/
structure Draft where
  filter : Option Json := none
  sortKeys : Option (List SortKey) := none
  limit : Option Int := none
  offset : Option Int := none

/-- The fields of a constraints record. -/
def recordFields : List (Json.Decode.Field Draft) :=
  [{ name := "where",
     read := fun value draft ↦
       .ok { draft with filter := Comparison.presentOperand (some value) } },
   { name := "order_by",
     read := fun value draft ↦ do
       return { draft with
         sortKeys := ← Json.Decode.optional (Json.Decode.list SortKey.ofJson) value } },
   { name := "limit",
     read := fun value draft ↦ do
       return { draft with limit := ← Json.Decode.optional Json.Decode.integer value } },
   { name := "offset",
     read := fun value draft ↦ do
       return { draft with offset := ← Json.Decode.optional Json.Decode.integer value } }]

/-- The filter that a value in the place of one stands for; an empty object is none. -/
def filterOf : Option Json → Except Refusal (Option Filter)
  | none => .ok none
  | some (.object []) => .ok none
  | some value =>
    match Filter.ofJson value with
    | .ok filter => .ok (some filter)
    | .error mismatch => .error (.malformedFilter mismatch)

/-- The constraints that the parts make up. -/
def Draft.finish (draft : Draft) : Except Refusal Constraints := do
  let filter ← filterOf draft.filter
  make filter (draft.sortKeys.getD []) draft.limit draft.offset

/-- Reads constraints. -/
def ofJson (value : Json) : Except Json.Mismatch Constraints := do
  let draft ← Json.Decode.record "RawQueryConstraints" recordFields {} value
  draft.finish.mapError Refusal.asMismatch

end Constraints

end AirInquiry
