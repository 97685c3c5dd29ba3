import AirInquiry.Selection.Basic

/-!
# Between selection objects and selected paths

`ofObject` walks the fields of a table and reads from an object which of them are selected, so that
every known field is listed and nothing else is. `toObject` builds an object back from a list of
paths, whatever the paths are.
-/

set_option autoImplicit false
set_option relaxedAutoImplicit false

namespace AirInquiry.FieldChoice

/-- The path of a field inside `parent`, which is empty at the top. -/
def childPath (parent name : String) : String :=
  if parent.isEmpty then name else parent ++ "." ++ name

/-- The path of an item. -/
def itemPath (path : String) (index : Nat) : String := path ++ "[" ++ toString index ++ "]"

/-- Whether a value is the truth value true. -/
def isTrue (value : Option Json) : Bool := (value.bind Json.asBool?).getD false

/-- How the rows of a related table are listed: the fields of the table inside a path. -/
abbrev RelatedChoices := String → Option (Option Json.Entries → String → List FieldChoice)

/-- The selected paths of one item of a list. -/
def itemChoices (related : RelatedChoices) (target path : String) (entry : Json × Nat) :
    List FieldChoice :=
  match entry.1, related target with
  | .object entries, some inner => inner (some entries) (itemPath path entry.2)
  | item, _ => [⟨itemPath path entry.2, isTrue (some item), none⟩]

/-- The selected paths of one field. -/
def fieldChoices (related : RelatedChoices) (parent : String) (entries : Option Json.Entries)
    (field : TableField) : List FieldChoice :=
  let path := childPath parent field.name
  let raw := entries.bind fun entries ↦ entries.get? field.name
  match field.kind with
  | .scalar => [⟨path, isTrue raw, some field.description⟩]
  | .object target =>
    match related target with
    | some inner => inner (raw.bind Json.asObject?) path
    | none => [⟨path, false, none⟩]
  | .list target =>
    match raw.bind Json.asArray? with
    | some (first :: rest) => (first :: rest).zipIdx.flatMap (itemChoices related target path)
    | _ => [⟨path, false, none⟩]

/-- The selected paths of all fields of a table. -/
def tableChoices (related : RelatedChoices) (table : Table) (entries : Option Json.Entries)
    (parent : String) : List FieldChoice :=
  table.fields.flatMap (fieldChoices related parent entries)

/-- The listing of a known table, with `steps` relations still to follow. -/
def relatedChoices (catalog : Catalog) : (steps : Nat) → RelatedChoices
  | 0, _ => none
  | steps + 1, target =>
    (catalog.get? target).map (tableChoices (relatedChoices catalog steps))

/-- The selected paths of a known table that an object selects. -/
def ofObject (catalog : Catalog) (name : String) (value : Json) : Option (List FieldChoice) := do
  let table ← catalog.get? name
  let entries ← value.asObject?
  pure (tableChoices (relatedChoices catalog Catalog.relationLimit) table (some entries) "")

/-- The largest number of items in a list that paths describe. -/
def itemLimit : Nat := 256

/-- The entries of a value, where anything but an object has none. -/
def entriesOf (value : Json) : Json.Entries := value.asObject?.getD []

/-- The items of a value, where anything but an array has none. -/
def itemsOf (value : Option Json) : List Json := (value.bind Json.asArray?).getD []

/-- A list with `value` at `index`, filled up with nulls where it is too short. -/
def setItem (items : List Json) (index : Nat) (value : Json) : List Json :=
  (items ++ List.replicate (index + 1 - items.length) Json.null).set index value

/-- A value with the mark put at the end of a path. Whatever stands in the way of the path gives way
to an object or a list, and an index that is too large is passed over. -/
def setMark (selected : Bool) : List (List Char) → Json → Json
  | [], value => value
  | part :: rest, value =>
    let entries := entriesOf value
    let (name, index) := nameAndIndex part
    let name := String.ofList name
    let inner (old : Json) : Json :=
      if rest.isEmpty then .bool selected else setMark selected rest old
    match index with
    | none => .object (entries.insert name (inner ((entries.get? name).getD (.object []))))
    | some index =>
      if itemLimit ≤ index then .object entries
      else
        let items := itemsOf (entries.get? name)
        let item := (items[index]?).getD .null
        .object (entries.insert name (.array (setItem items index (inner item))))

/-- The object in which every path of a list holds its mark; later paths are put over earlier
ones. -/
def toObject (fields : List FieldChoice) : Json :=
  fields.foldl (fun value field ↦ setMark field.selected (parts field.path) value) (.object [])

end AirInquiry.FieldChoice
