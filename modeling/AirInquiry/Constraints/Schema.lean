import AirInquiry.Filter.Operator
import AirInquiry.Json.Schema

/-!
# The schema of constraints

The JSON schema of the object in which constraints are asked for. Filters hold filters, so they are
defined by name.
-/

set_option autoImplicit false
set_option relaxedAutoImplicit false

namespace AirInquiry.Constraints

open Json.Schema

/-- The schema of a condition. -/
def conditionSchema : Json :=
  let operators := Operator.all.map Operator.toJson ++ [Json.null]
  openObject ["field"]
    [("field", ofType "string"),
      ("nested", orNull (reference "condition")),
      ("op", .object [("enum", .array operators), nullableType "string"]),
      ("value", .object [])]

/-- The schema of a filter. -/
def filterSchema : Json :=
  let filter := reference "bool_expr"
  let group (key : String) (content : Json) : Json := openObject [key] [(key, content)]
  anyOf [reference "condition", group "_and" (list filter),
    group "_or" (list filter), group "_not" filter]

/-- The schema of a sort key. -/
def sortKeySchema : Json :=
  let positions : List Json := [.string "first", .string "last", .null]
  openObject ["field", "direction"]
    [("direction", oneOf ["asc", "desc"]), ("field", ofType "string"),
      ("nulls", .object [("enum", .array positions), nullableType "string"])]

/-- The schema of a number of rows that is at least `least`. -/
def countSchema (least : Nat) : Json :=
  .object [("minimum", Json.ofNat least), nullableType "integer"]

/-- The schema of constraints. -/
def schema : Json :=
  .object [
    ("$defs", .object [("bool_expr", filterSchema), ("condition", conditionSchema),
      ("order_item", sortKeySchema)]),
    ("additionalProperties", .bool false),
    ("properties", .object [("limit", countSchema 1), ("offset", countSchema 0),
      ("order_by", orNull (list (reference "order_item"))),
      ("where", orNull (reference "bool_expr"))]),
    ("required", Json.ofStrings ["where", "order_by", "limit", "offset"]),
    ("type", .string "object")]

end AirInquiry.Constraints
