import AirInquiry.Json.Basic

/-!
# Schemas

A schema says which JSON values are wanted, and is a JSON value itself. These are the forms of
schema that replies of a language model are asked to satisfy.
-/

set_option autoImplicit false
set_option relaxedAutoImplicit false

namespace AirInquiry.Json.Schema

/-- A reference to a definition of the same schema. -/
def reference (name : String) : Json := .object [("$ref", .string ("#/$defs/" ++ name))]

/-- The values of one type. -/
def ofType (name : String) : Json := .object [("type", .string name)]

/-- The values of one type as an entry that allows null as well. -/
def nullableType (name : String) : String × Json := ("type", ofStrings [name, "null"])

/-- The values of any of several schemas. -/
def anyOf (alternatives : List Json) : Json := .object [("anyOf", .array alternatives)]

/-- The values of a schema, and null. -/
def orNull (schema : Json) : Json := anyOf [schema, ofType "null"]

/-- The lists of values of a schema. -/
def list (items : Json) : Json := .object [("items", items), ("type", .string "array")]

/-- The given texts. -/
def oneOf (texts : List String) : Json :=
  .object [("enum", ofStrings texts), ("type", .string "string")]

/-- The objects with certain properties, of which some are required, and possibly others. -/
def openObject (required : List String) (properties : List (String × Json)) : Json :=
  .object [("properties", .object properties), ("required", ofStrings required),
    ("type", .string "object")]

/-- The objects with certain properties, of which some are required, and no others. -/
def closedObject (required : List String) (properties : List (String × Json)) : Json :=
  .object [("additionalProperties", .bool false), ("properties", .object properties),
    ("required", ofStrings required), ("type", .string "object")]

end AirInquiry.Json.Schema
