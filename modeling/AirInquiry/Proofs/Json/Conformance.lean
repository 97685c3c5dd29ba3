import AirInquiry.Json.Schema
import AirInquiry.Proofs.Json.Entries
import Mathlib.Tactic.Common

/-!
# Values that conform to a schema

`Json.Schema.accepts` says whether a value conforms to a schema, which is read keyword by keyword:
types, the properties of an object with those that are required and a schema for all others, the
items of a list, and alternatives. Every other keyword is a remark. A keyword for objects or lists
says nothing about other values, as does an argument that its keyword does not have.

The routes along the keys of a value to what is true in it (`Json.Marks`) pass through the lists on
the way without a trace.
-/

set_option autoImplicit false
set_option relaxedAutoImplicit false

namespace AirInquiry.Json

namespace Schema

/-- Whether a value is of the type of a name. -/
def isOfType (name : String) : Json → Bool
  | .null => name = "null"
  | .bool _ => name = "boolean"
  | .number (.integer _) => name = "integer" || name = "number"
  | .number (.float _) => name = "number"
  | .string _ => name = "string"
  | .array _ => name = "array"
  | .object _ => name = "object"

/-- Whether a value is of one of the types that are named, by one name or by a list. -/
def isOfTypes (argument value : Json) : Bool :=
  match argument with
  | .string name => isOfType name value
  | .array names => names.any fun name ↦ name.asString?.any fun name ↦ isOfType name value
  | _ => true

/-- Whether an object has all keys that are named. -/
def hasRequired (argument value : Json) : Bool :=
  match argument, value with
  | .array names, .object entries =>
    names.all fun name ↦ name.asString?.all fun key ↦ (Entries.get? entries key).isSome
  | _, _ => true

/-- The entries of a value, where anything but an object has none. -/
def entriesOf (value : Json) : Entries := value.asObject?.getD []

/-- The items of a value, where anything but an array has none. -/
def itemsOf (value : Json) : List Json := value.asArray?.getD []

/-- The properties that a schema declares. -/
def declared (keywords : Entries) : List String :=
  (((keywords.get? "properties").map entriesOf).getD []).map Prod.fst

mutual

/-- Whether a value conforms to a schema: to all keywords of an object, or to a verdict. Anything
else is no schema. -/
def accepts : Json → Json → Bool
  | .object keywords, value => keywordsAccept (declared keywords) keywords value
  | .bool verdict, _ => verdict
  | _, _ => false
termination_by structural schema => schema

/-- Whether a value conforms to keywords, where the properties next to them have the given names. -/
def keywordsAccept (names : List String) : List (String × Json) → Json → Bool
  | [], _ => true
  | (keyword, argument) :: rest, value =>
    (match keyword with
      | "type" => isOfTypes argument value
      | "required" => hasRequired argument value
      | "properties" => propertiesAccept argument value
      | "additionalProperties" => (entriesOf value).all fun entry ↦
          names.contains entry.1 || accepts argument entry.2
      | "items" => (itemsOf value).all fun item ↦ accepts argument item
      | "anyOf" => alternativesAccept argument value
      | _ => true) && keywordsAccept names rest value
termination_by structural keywords => keywords

/-- Whether the values under declared keys conform to their schemas. -/
def propertiesAccept : Json → Json → Bool
  | .object properties, value => allAccept properties value
  | _, _ => true
termination_by structural argument => argument

/-- Whether the values under the keys of schemas conform to them. -/
def allAccept : List (String × Json) → Json → Bool
  | [], _ => true
  | (name, schema) :: rest, value =>
    (value.get? name).all (fun inner ↦ accepts schema inner) && allAccept rest value
termination_by structural properties => properties

/-- Whether a value conforms to one of several schemas. -/
def alternativesAccept : Json → Json → Bool
  | .array alternatives, value => anyAccepts alternatives value
  | _, _ => true
termination_by structural argument => argument

/-- Whether a value conforms to one of the schemas of a list. -/
def anyAccepts : List Json → Json → Bool
  | [], _ => false
  | schema :: rest, value => accepts schema value || anyAccepts rest value
termination_by structural alternatives => alternatives

end

theorem accepts_of_mem {name : String} {schema value inner : Json} {properties : Entries}
    (h : allAccept properties value = true) (hmem : (name, schema) ∈ properties)
    (hinner : value.get? name = some inner) : accepts schema inner = true := by
  induction properties with
  | nil => cases hmem
  | cons first rest ih =>
    rw [allAccept, Bool.and_eq_true] at h
    rcases List.mem_cons.1 hmem with rfl | hrest
    · rw [hinner] at h
      exact h.1
    · exact ih h.2 hrest

theorem exists_eq_bool_of_isOfType {value : Json} (h : isOfType "boolean" value = true) :
    ∃ verdict, value = .bool verdict := by
  cases value with
  | bool verdict => exact ⟨verdict, rfl⟩
  | number value => cases value <;> cases h
  | _ => cases h

theorem eq_null_of_isOfType {value : Json} (h : isOfType "null" value = true) : value = .null := by
  cases value with
  | null => rfl
  | number value => cases value <;> cases h
  | _ => cases h

theorem exists_eq_array_of_isOfType {value : Json} (h : isOfType "array" value = true) :
    ∃ items, value = .array items := by
  cases value with
  | array items => exact ⟨items, rfl⟩
  | number value => cases value <;> cases h
  | _ => cases h

theorem exists_eq_object_of_isOfType {value : Json} (h : isOfType "object" value = true) :
    ∃ entries, value = .object entries := by
  cases value with
  | object entries => exact ⟨entries, rfl⟩
  | number value => cases value <;> cases h
  | _ => cases h

/-- An object that allows no other properties has a schema for whatever stands in it. -/
theorem exists_schema_of_accepts {description required value : Json} {properties : Entries}
    (h : accepts (.object [("additionalProperties", .bool false), ("description", description),
      ("properties", .object properties), ("required", required), ("type", .string "object")])
      value = true) :
    ∃ entries : Entries, value = .object entries ∧ ∀ key inner, entries.get? key = some inner →
      ∃ schema, (key, schema) ∈ properties ∧ accepts schema inner = true := by
  simp [accepts, keywordsAccept, propertiesAccept, isOfTypes] at h
  obtain ⟨hkeys, hproperties, -, htype⟩ := h
  obtain ⟨entries, rfl⟩ := exists_eq_object_of_isOfType htype
  refine ⟨entries, rfl, fun key inner hinner ↦ ?_⟩
  have hdeclared : key ∈ properties.map Prod.fst := hkeys key inner (Entries.mem_of_get? hinner)
  obtain ⟨⟨name, schema⟩, hmem, rfl⟩ := List.mem_map.1 hdeclared
  exact ⟨schema, hmem, accepts_of_mem hproperties hmem hinner⟩

end Schema

/-- A route along the keys of a value leads to something that is true. On the way it may pass into
any item of a list. -/
inductive Marks : Json → List String → Prop where
  | here : Marks (.bool true) []
  | under {entries : Entries} {key : String} {inner : Json} {route : List String}
      (hkey : entries.get? key = some inner) (hinner : Marks inner route) :
      Marks (.object entries) (key :: route)
  | inside {items : List Json} {item : Json} {route : List String} (hitem : item ∈ items)
      (h : Marks item route) : Marks (.array items) route

mutual

/-- Every list in the value, at any depth, has at most the given number of items. -/
def ListsWithin (limit : Nat) : Json → Prop
  | .array items => items.length ≤ limit ∧ ItemsWithin limit items
  | .object entries => EntriesWithin limit entries
  | _ => True
termination_by structural value => value

/-- `ListsWithin` for every item of a list. -/
def ItemsWithin (limit : Nat) : List Json → Prop
  | [] => True
  | item :: rest => item.ListsWithin limit ∧ ItemsWithin limit rest
termination_by structural items => items

/-- `ListsWithin` for every value of a list of entries. -/
def EntriesWithin (limit : Nat) : List (String × Json) → Prop
  | [] => True
  | (_, value) :: rest => value.ListsWithin limit ∧ EntriesWithin limit rest
termination_by structural entries => entries

end

theorem itemsWithin_iff {limit : Nat} {items : List Json} :
    ItemsWithin limit items ↔ ∀ item ∈ items, item.ListsWithin limit := by
  induction items with
  | nil => simp [ItemsWithin]
  | cons first rest ih => simp [ItemsWithin, ih]

theorem entriesWithin_iff {limit : Nat} {entries : Entries} :
    EntriesWithin limit entries ↔ ∀ entry ∈ entries, entry.2.ListsWithin limit := by
  induction entries with
  | nil => simp [EntriesWithin]
  | cons first rest ih => simp [EntriesWithin, ih]

end AirInquiry.Json
