import AirInquiry.Catalog.Basic

/-!
# The schema of a selection

The JSON schema of the object in which a selection of fields is asked for: a boolean for every field
of its own, an object or null for a related row, and a list for related rows. Relations are followed
`Catalog.relationLimit` times; a relation that would go further, or to an unknown table, is left
out.
-/

set_option autoImplicit false
set_option relaxedAutoImplicit false

namespace AirInquiry.Catalog

/-- The schema of a field, where `related` gives the schema of a related table. -/
def fieldSchema (related : String → Option Json) (field : TableField) : Option Json :=
  match field.kind with
  | .scalar =>
    some (.object [("description", .string field.description), ("type", .string "boolean")])
  | .object target => (related target).map fun inner ↦
    .object [("anyOf", .array [inner, .object [("type", .string "null")]]),
      ("description", .string field.description)]
  | .list target => (related target).map fun inner ↦
    .object [("description", .string field.description), ("items", inner),
      ("type", .string "array")]

/-- The schema of a table's selection, where `related` gives the schema of a related table. -/
def rowSchema (related : String → Option Json) (table : Table) : Json :=
  let offered := table.fields.filterMap fun field ↦
    (fieldSchema related field).map fun schema ↦ (field.name, schema)
  .object [("additionalProperties", .bool false), ("description", .string table.description),
    ("properties", Json.ofEntries offered), ("required", Json.ofStrings (offered.map (·.1))),
    ("type", .string "object")]

/-- The schema of the selection from a known table, with `steps` relations still to follow. -/
def relatedSchema (catalog : Catalog) : (steps : Nat) → String → Option Json
  | 0, _ => none
  | steps + 1, target =>
    (catalog.get? target).map (rowSchema (relatedSchema catalog steps))

/-- The schema of the selection from a known table. -/
def choiceSchema (catalog : Catalog) (name : String) : Option Json :=
  (catalog.get? name).map (rowSchema (relatedSchema catalog relationLimit))

end AirInquiry.Catalog
