import AirInquiry.Json.Parser

/-!
# Reading typed values from JSON text

A text that should hold a value of a certain shape is read along that shape, and the first fault
decides: either the text is malformed up to some place, or what stands there has another shape. So a
text can be refused for its shape before a later part of it is looked at. Entries that the shape
does not mention are skipped. They have to be well formed, but the checks of `checked` reading are
not made on them, and brackets inside each other are not counted.
-/

set_option autoImplicit false
set_option relaxedAutoImplicit false

namespace AirInquiry.Json

/-- A reader of values with a limited number of brackets inside each other. -/
abbrev Typed (α : Type) := (depth : Nat) → Reader α

namespace Typed

/-- Refuses the value at the cursor for its shape, unless it is malformed already. -/
def refuse {α : Type} : Reader α := do
  match ← Reader.peekToken with
  | some '[' | some '{' => Reader.failShape
  | _ =>
    let _ ← Reader.value true 0
    Reader.failShape

/-- Reads any value. -/
def anything : Typed Json := Reader.value true

/-- Reads a string. -/
def string : Typed String := fun _ ↦ do
  match ← Reader.peekToken with
  | some '"' => Reader.string true
  | _ => refuse

/-- Reads null as an absent value and everything else by `element`. -/
def optional {α : Type} (element : Typed α) : Typed (Option α) := fun depth ↦ do
  match ← Reader.peekToken with
  | some 'n' =>
    Reader.advance
    Reader.word "ull".toList
    pure none
  | _ => return some (← element depth)

/-- Moves past an opening bracket and reads what is behind it, with one bracket less to spend. -/
def inside {α : Type} (content : Typed α) : Typed α
  | 0 => Reader.failAhead .tooDeep
  | depth + 1 => do
    Reader.advance
    content depth

/-- More than the number of values that the text still to read can hold. -/
def bound : Reader Nat := do return (← get).rest.length + 1

/-- Reads a list of values that `element` reads. -/
def list {α : Type} (element : Typed α) : Typed (List α) := fun depth ↦ do
  match ← Reader.peekToken with
  | some '[' => inside (fun depth ↦ do Reader.items (element depth) (← bound) []) depth
  | _ => refuse

/-- Reads an object of any values. -/
def dictionary : Typed Entries := fun depth ↦ do
  match ← Reader.peekToken with
  | some '{' =>
    inside (fun depth ↦ do
      let entries ← Reader.entries true (anything depth) (← bound) []
      pure (Entries.ofList entries)) depth
  | _ => refuse

/-- Moves past any value. -/
def skip : Reader Unit := do
  let _ ← Reader.value false (← bound)

/-- A field of a record: its name, whether an object may leave it out, whether a list may, and how
its value is read into the record. -/
structure Field (α : Type) where
  name : String
  optionalInObject : Bool := false
  optionalInList : Bool := false
  read : α → Typed α

/-- Reads the entries of an object into a record. `seen` holds the names of the fields read so far.
A field that stands there twice is refused, and so is a record without a field that it needs. -/
def recordEntries {α : Type} (fields : List (Field α)) (depth : Nat) :
    (bound : Nat) → List String → Bool → α → Reader α
  | 0, _, _, _ => Reader.failHere .endInObject
  | bound + 1, seen, first, record => do
    if ← Reader.toNextKey first then
      let key ← Reader.string true
      match fields.find? (·.name = key) with
      | none =>
        Reader.colon
        skip
        recordEntries fields depth bound seen false record
      | some field =>
        if seen.contains key then Reader.failShape
        else
          Reader.colon
          let record ← field.read record depth
          recordEntries fields depth bound (key :: seen) false record
    else if fields.any fun field ↦ !field.optionalInObject && !seen.contains field.name then
      Reader.failShape
    else
      Reader.advance
      pure record

/-- Reads the items of a list into a record, in the order of its fields. -/
def recordItems {α : Type} (depth : Nat) : List (Field α) → Bool → α → Reader α
  | [], _, record => do
    match ← Reader.peekToken with
    | none => Reader.failAhead .endInList
    | some ']' =>
      Reader.advance
      pure record
    | some _ => Reader.failAhead .trailingCharacters
  | field :: fields, first, record => do
    if ← Reader.toNextItem first then
      let record ← field.read record depth
      recordItems depth fields false record
    else if field.optionalInList then recordItems depth fields false record
    else Reader.failShape

/-- Reads a record from an object of its fields or from a list of them. -/
def record {α : Type} (fields : List (Field α)) (empty : α) : Typed α := fun depth ↦ do
  match ← Reader.peekToken with
  | some '[' => inside (fun depth ↦ recordItems depth fields true empty) depth
  | some '{' =>
    inside (fun depth ↦ do recordEntries fields depth (← bound) [] true empty) depth
  | _ => refuse

/-- The value of a whole text. -/
def parse {α : Type} (typed : Typed α) (text : String) : Except Failure α :=
  Reader.run (do let value ← typed nestingLimit; Reader.finish; pure value) text

end Typed

end AirInquiry.Json
