import AirInquiry.Json.Printer
import AirInquiry.Text.Quoted

/-!
# From JSON values to typed ones

A value that does not have the wanted shape is answered with a `Mismatch`, worded in one place by
`Mismatch.message`. Records are described by their fields. `record` reads one from an object, whose
keys are visited in their order and whose unknown keys are passed over, or from an array of the
fields in the order of the description. In both forms the first mismatch decides, and a missing
required field is noticed after all fields that are there.
-/

set_option autoImplicit false
set_option relaxedAutoImplicit false

namespace AirInquiry.Json

/-- What a reader of a value wanted. -/
inductive Expected where
  | string
  | boolean
  | integer
  | null
  | sequence
  | map
  | stringOrMap
  | mapWithSingleKey
  | record (name : String)
  | recordOfSize (name : String) (size : Nat)
  | fewerElements
  deriving DecidableEq, Repr

/-- The wording of what was wanted. -/
def Expected.message : Expected → String
  | .string => "a string"
  | .boolean => "a boolean"
  | .integer => "i64"
  | .null => "unit"
  | .sequence => "a sequence"
  | .map => "a map"
  | .stringOrMap => "string or map"
  | .mapWithSingleKey => "map with a single key"
  | .record name => "struct " ++ name
  | .recordOfSize name size =>
    "struct " ++ name ++ " with " ++ toString size ++ (if size = 1 then " element" else " elements")
  | .fewerElements => "fewer elements in array"

/-- Why a value could not be read as a typed one. -/
inductive Mismatch where
  | wrongType (found : Json) (expected : Expected)
  | wrongValue (found : Json) (expected : Expected)
  | wrongLength (length : Nat) (expected : Expected)
  | unknownVariant (name : String) (allowed : List String)
  | missingField (name : String)
  | duplicateField (name : String)
  | noAlternative (name : String)
  | refused (reason : String)

/-- The wording of a value that was found. -/
def found : Json → String
  | .null => "null"
  | .bool value => "boolean `" ++ String.ofList (boolText value) ++ "`"
  | .number (.integer value) => "integer `" ++ String.ofList (Number.integer value).text ++ "`"
  | .number (.float value) => "floating point `" ++ String.ofList value.dataText ++ "`"
  | .string text => "string " ++ Text.quoted text
  | .array _ => "sequence"
  | .object _ => "map"

/-- A name between backticks. -/
def ticked (name : String) : String := "`" ++ name ++ "`"

/-- The wording of the names that were allowed. -/
def allowedText : List String → String
  | [] => "there are no variants"
  | [name] => "expected " ++ ticked name
  | [first, second] => "expected " ++ ticked first ++ " or " ++ ticked second
  | names => "expected one of " ++ Text.join ", " (names.map ticked)

/-- The wording of a mismatch. -/
def Mismatch.message : Mismatch → String
  | .wrongType value expected =>
    "invalid type: " ++ found value ++ ", expected " ++ expected.message
  | .wrongValue value expected =>
    "invalid value: " ++ found value ++ ", expected " ++ expected.message
  | .wrongLength length expected =>
    "invalid length " ++ toString length ++ ", expected " ++ expected.message
  | .unknownVariant name allowed => "unknown variant " ++ ticked name ++ ", " ++ allowedText allowed
  | .missingField name => "missing field " ++ ticked name
  | .duplicateField name => "duplicate field " ++ ticked name
  | .noAlternative name => "data did not match any variant of untagged enum " ++ name
  | .refused reason => reason

namespace Decode

/-- Reads a string. -/
def string : Json → Except Mismatch String
  | .string text => .ok text
  | other => .error (.wrongType other .string)

/-- Reads a boolean. -/
def boolean : Json → Except Mismatch Bool
  | .bool value => .ok value
  | other => .error (.wrongType other .boolean)

/-- Reads an integer between `-2 ^ 63` and `2 ^ 63 - 1`. -/
def integer : Json → Except Mismatch Int
  | .number (.integer value) =>
    if -(Nat.pow 2 63 : Int) ≤ value ∧ value < Nat.pow 2 63 then .ok value
    else .error (.wrongValue (.number (.integer value)) .integer)
  | other => .error (.wrongType other .integer)

/-- Reads the entries of an object. -/
def map : Json → Except Mismatch Entries
  | .object entries => .ok entries
  | other => .error (.wrongType other .map)

/-- Reads an array of values that `element` reads. -/
def list {α : Type} (element : Json → Except Mismatch α) : Json → Except Mismatch (List α)
  | .array items => items.mapM element
  | other => .error (.wrongType other .sequence)

/-- Reads null as an absent value and everything else by `element`. -/
def optional {α : Type} (element : Json → Except Mismatch α) : Json → Except Mismatch (Option α)
  | .null => .ok none
  | other => (element other).map some

/-- The value of a name among named values. -/
def namedVariant {α : Type} (variants : List (String × α)) (name : String) : Except Mismatch α :=
  match variants.find? fun entry ↦ entry.1 = name with
  | some (_, value) => .ok value
  | none => .error (.unknownVariant name (variants.map (·.1)))

/-- Reads one of the named values, from its name or from an object that has null under its name. -/
def variant {α : Type} (variants : List (String × α)) : Json → Except Mismatch α
  | .string name => namedVariant variants name
  | .object [(name, content)] => do
    let value ← namedVariant variants name
    match content with
    | .null => .ok value
    | other => .error (.wrongType other .null)
  | .object entries => .error (.wrongValue (.object entries) .mapWithSingleKey)
  | other => .error (.wrongType other .stringOrMap)

/-- A field of a record of type `α`: its names, whether it may be left out, and how its value is
read into the record. -/
structure Field (α : Type) where
  name : String
  aliases : List String := []
  required : Bool := false
  read : Json → α → Except Mismatch α

/-- Whether a key names the field. -/
def Field.isCalled {α : Type} (field : Field α) (key : String) : Bool :=
  key = field.name || field.aliases.contains key

/-- Reads one entry of an object into a record. `seen` holds the names of the fields read so far. -/
def entryInto {α : Type} (fields : List (Field α)) (state : α × List String)
    (entry : String × Json) : Except Mismatch (α × List String) :=
  let (record, seen) := state
  match fields.find? (·.isCalled entry.1) with
  | none => .ok (record, seen)
  | some field =>
    if seen.contains field.name then .error (.duplicateField field.name)
    else (field.read entry.2 record).map fun record ↦ (record, field.name :: seen)

/-- Reads the entries of an object into a record. -/
def ofEntries {α : Type} (fields : List (Field α)) (empty : α) (entries : Entries) :
    Except Mismatch α := do
  let (record, seen) ← entries.foldlM (entryInto fields) (empty, [])
  match fields.find? fun field ↦ field.required && !seen.contains field.name with
  | some field => .error (.missingField field.name)
  | none => .ok record

/-- Reads the items of an array, of which `size` come before, into a record. -/
def ofItems {α : Type} (name : String) (total : Nat) :
    (index : Nat) → List (Field α) → List Json → α → Except Mismatch α
  | _, [], [], record => .ok record
  | index, [], items, _ => .error (.wrongLength (index + items.length) .fewerElements)
  | index, field :: fields, [], record =>
    if field.required then .error (.wrongLength index (.recordOfSize name total))
    else ofItems name total (index + 1) fields [] record
  | index, field :: fields, item :: items, record => do
    let record ← field.read item record
    ofItems name total (index + 1) fields items record

/-- Reads a record from an object of its fields or from an array of them. -/
def record {α : Type} (name : String) (fields : List (Field α)) (empty : α) :
    Json → Except Mismatch α
  | .object entries => ofEntries fields empty entries
  | .array items => ofItems name fields.length 0 fields items empty
  | other => .error (.wrongType other (.record name))

end Decode

end AirInquiry.Json
