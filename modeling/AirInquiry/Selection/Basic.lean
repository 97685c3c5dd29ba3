import AirInquiry.Catalog.Basic
import AirInquiry.Json.Decode
import AirInquiry.Text.Unsigned

/-!
# Selected fields

A selection lists the paths of fields with a mark at each. A path has a point between its parts, and
a part may end in the index of an item, as in `districts[0].name`. The paths are plain text, because
they are also read from outside.
-/

set_option autoImplicit false
set_option relaxedAutoImplicit false

namespace AirInquiry

/-- A path with the mark whether it is selected, and what the field means. -/
structure FieldChoice where
  path : String
  selected : Bool
  description : Option String := none
  deriving DecidableEq, Repr

namespace FieldChoice

/-- The entry for the description, if there is one. -/
def descriptionEntry : Option String → List (String × Json)
  | none => []
  | some description => [("description", .string description)]

/-- A selected field as a JSON value. -/
def toJson (field : FieldChoice) : Json :=
  .object (descriptionEntry field.description ++
    [("path", .string field.path), ("selected", .bool field.selected)])

/-- A selected field as it is shown in a prompt: the path first and the description last. -/
def toPromptJson (field : FieldChoice) : Json :=
  .object ([("path", .string field.path), ("selected", .bool field.selected)] ++
    descriptionEntry field.description)

/-- The fields of a selection's record. -/
def recordFields : List (Json.Decode.Field FieldChoice) :=
  [{ name := "path", required := true,
     read := fun value field ↦ do return { field with path := ← Json.Decode.string value } },
   { name := "selected", required := true,
     read := fun value field ↦ do return { field with selected := ← Json.Decode.boolean value } },
   { name := "description",
     read := fun value field ↦ do
       return { field with description := ← Json.Decode.optional Json.Decode.string value } }]

/-- Reads a selected field. -/
def ofJson : Json → Except Json.Mismatch FieldChoice :=
  Json.Decode.record "FieldSelection" recordFields ⟨"", false, none⟩

/-- A part of a path split into the name and the index that it ends in. The index stands in the
first brackets, which have to close at the end; any other part is a name as a whole. -/
def nameAndIndex (part : List Char) : List Char × Option Nat :=
  let name := part.takeWhile (· ≠ '[')
  match part.dropWhile (· ≠ '[') with
  | [] => (part, none)
  | _ :: inside =>
    if inside.getLast? = some ']' then
      match Text.unsigned Text.wordLimit inside.dropLast with
      | .ok index => (name, some index)
      | .error _ => (part, none)
    else (part, none)

/-- The parts of a path. -/
def parts (path : String) : List (List Char) := Text.splitChars '.' path.toList

/-- A path without its indices. -/
def unindexedPath (path : String) : String :=
  String.ofList (Text.joinChars ['.'] ((parts path).map fun part ↦ (nameAndIndex part).1))

/-- Marks the identifier whenever anything is selected, and puts it in front if it is missing. -/
def withIdentifier (fields : List FieldChoice) : List FieldChoice :=
  if fields.any (·.selected) then
    match fields.findIdx? (·.path = identifierName) with
    | some index => fields.modify index fun field ↦ { field with selected := true }
    | none => ⟨identifierName, true, none⟩ :: fields
  else fields

end FieldChoice

end AirInquiry
