import AirInquiry.Filter.Basic

/-!
# Filters that follow earlier results

Rows found earlier in a table `things` narrow down a table with a candidate field `thing_id` to the
rows that point to one of them. Every identifier counts once, in the order in which the rows were
found.
-/

set_option autoImplicit false
set_option relaxedAutoImplicit false

namespace AirInquiry.Inference

/-- The field that points to a row of a table: its name without one `s` at the end, with `_id`. -/
def linkField (table : String) : String :=
  let chars := table.toList
  let singular := if chars.getLast? = some 's' then chars.dropLast else chars
  String.ofList singular ++ "_id"

/-- The rows that a result holds: the items of a list, or a single object. -/
def rowsOf : Json → List Json
  | .array items => items
  | .object entries => [.object entries]
  | _ => []

/-- An identifier is a text or a number. -/
def identifierOf? (row : Json) : Option Scalar :=
  match row.get? "id" with
  | some (.string text) => some (.string text)
  | some (.number value) => some (.number value)
  | _ => none

/-- Whether two identifiers are the same. -/
def sameIdentifier : Scalar → Scalar → Bool
  | .string a, .string b => a = b
  | .number a, .number b => a.equals b
  | _, _ => false

/-- The identifiers of rows, each at its first place. `known` holds those of the rows before. -/
def identifiersFrom (known : List Scalar) : List Json → List Scalar
  | [] => known
  | row :: rest =>
    match identifierOf? row with
    | none => identifiersFrom known rest
    | some identifier =>
      if known.any (sameIdentifier · identifier) then identifiersFrom known rest
      else identifiersFrom (known ++ [identifier]) rest

/-- The identifiers of the rows that a result holds. -/
def identifiers (result : Json) : List Scalar := identifiersFrom [] (rowsOf result)

/-- The condition that a field holds one of the identifiers, if there are any. -/
def linkCondition? (field : String) : List Scalar → Option Condition
  | [] => none
  | [identifier] =>
    (Condition.compare field (.scalar .equal) (some identifier.toJson)).toOption
  | identifiers =>
    (Condition.compare field .oneOf (some (.array (identifiers.map Scalar.toJson)))).toOption

/-- The filter that one earlier result gives for the candidate paths. -/
def linkFilter? (paths : List String) (entry : String × Json) : Option Filter :=
  let field := linkField entry.1
  if paths.contains field then (linkCondition? field (identifiers entry.2)).map .leaf else none

/-- The filters that earlier results give for the candidate paths. -/
def linkFilters (prior : Json.Entries) (paths : List String) : List Filter :=
  prior.filterMap (linkFilter? paths)

end AirInquiry.Inference
