import AirInquiry.Filter.Comparison
import AirInquiry.GraphQL.Name

/-!
# Conditions

A condition compares a field, or passes through a relation to a condition on the related rows. It is
built by `Condition.compare` and `Condition.through`, which refuse fields that are no names, or read
from JSON, where it is an object of `field`, `op`, `value` and `nested`. A nested condition takes
the place of operator and operand.
-/

set_option autoImplicit false
set_option relaxedAutoImplicit false

namespace AirInquiry

/-- A condition on the rows of a table. -/
inductive Condition where
  | compared (field : GraphQL.Name) (comparison : Comparison)
  | related (relation : GraphQL.Name) (inner : Condition)
  deriving DecidableEq

namespace Condition

/-- A field name that has been checked. -/
def nameFor (name : String) : Except Refusal GraphQL.Name :=
  match GraphQL.Name.ofString? name with
  | some name => .ok name
  | none => .error (.notAName name)

/-- The condition that compares a field. -/
def compare (field : String) (operator : Operator) (operand : Option Json) :
    Except Refusal Condition := do
  let field ← nameFor field
  let comparison ← Comparison.make operator operand
  .ok (.compared field comparison)

/-- The condition that passes through a relation. -/
def through (relation : String) (inner : Condition) : Except Refusal Condition := do
  let relation ← nameFor relation
  .ok (.related relation inner)

/-- A condition as a JSON value. -/
def toJson : Condition → Json
  | .compared field comparison =>
    .object [("field", .string field.text), ("op", comparison.operator.toJson),
      ("value", comparison.operand)]
  | .related relation inner => .object [("field", .string relation.text), ("nested", inner.toJson)]

/-- The parts of a condition as they are read. -/
structure Draft where
  field : Option String := none
  operator : Option Operator := none
  operand : Option Json := none
  inner : Option Condition := none

/-- The condition that the parts make up; without an inner condition there has to be an operator. -/
def Draft.finish (draft : Draft) : Except Refusal Condition :=
  let field := draft.field.getD ""
  match draft.inner, draft.operator with
  | some inner, _ => through field inner
  | none, some operator => compare field operator draft.operand
  | none, none => .error (.noOperator field)

/-- The name under which a condition's record is known in diagnostics. -/
def recordName : String := "RawCondition"

open Json (Mismatch)

mutual

/-- Reads a condition from an object of its parts, or from the array of field, operator, operand and
inner condition. -/
def ofJson : Json → Except Mismatch Condition
  | .object entries => do
    let draft ← ofEntries {} entries
    if draft.field.isNone then .error (.missingField "field")
    else draft.finish.mapError Refusal.asMismatch
  | .array items => do
    let draft ← ofItems 0 {} items
    if draft.field.isNone then .error (.wrongLength 0 (.recordOfSize recordName 4))
    else draft.finish.mapError Refusal.asMismatch
  | other => .error (.wrongType other (.record recordName))
termination_by structural value => value

/-- Reads the parts that the entries of an object hold, in their order. -/
def ofEntries (draft : Draft) : List (String × Json) → Except Mismatch Draft
  | [] => .ok draft
  | (key, value) :: rest =>
    match key with
    | "field" => do ofEntries { draft with field := some (← Json.Decode.string value) } rest
    | "op" => do
      ofEntries { draft with operator := ← Json.Decode.optional Operator.ofJson value } rest
    | "value" => ofEntries { draft with operand := Comparison.presentOperand (some value) } rest
    | "nested" => do
      let inner ← if value.isNull then .ok none else (ofJson value).map some
      ofEntries { draft with inner } rest
    | _ => ofEntries draft rest
termination_by structural entries => entries

/-- Reads the parts that the items of an array hold from the part `index` on. -/
def ofItems (index : Nat) (draft : Draft) : List Json → Except Mismatch Draft
  | [] => .ok draft
  | value :: rest =>
    match index with
    | 0 => do ofItems 1 { draft with field := some (← Json.Decode.string value) } rest
    | 1 => do
      ofItems 2 { draft with operator := ← Json.Decode.optional Operator.ofJson value } rest
    | 2 => ofItems 3 { draft with operand := Comparison.presentOperand (some value) } rest
    | 3 => do
      let inner ← if value.isNull then .ok none else (ofJson value).map some
      ofItems 4 { draft with inner } rest
    | _ => .error (.wrongLength (5 + rest.length) .fewerElements)
termination_by structural items => items

end

end Condition

end AirInquiry
