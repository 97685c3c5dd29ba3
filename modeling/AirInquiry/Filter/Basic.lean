import AirInquiry.Filter.Condition

/-!
# Filters

A filter combines conditions by conjunction, disjunction and negation to any depth. `prune` removes
the groups that hold no condition, from the inside out, and `IsPruned` says that no empty group is
left; `isPruned_of_prune` connects the two.

A filter is read from JSON by trying its four forms in turn: an object with a conjunction, one with
a disjunction, one with a negation, and a condition. A form that does not read completely gives way
to the next, and keys that a form does not know do not count.
-/

set_option autoImplicit false
set_option relaxedAutoImplicit false

namespace AirInquiry

/-- A filter on the rows of a table. -/
inductive Filter where
  | and (items : List Filter)
  | or (items : List Filter)
  | not (item : Filter)
  | leaf (condition : Condition)

namespace Filter

mutual

/-- The filter without the groups that hold no condition, if anything is left of it. -/
def prune : Filter → Option Filter
  | .and items =>
    let kept := pruneItems items
    if kept.isEmpty then none else some (.and kept)
  | .or items =>
    let kept := pruneItems items
    if kept.isEmpty then none else some (.or kept)
  | .not item => (prune item).map .not
  | .leaf condition => some (.leaf condition)
termination_by structural filter => filter

/-- What is left of each item, in order. -/
def pruneItems : List Filter → List Filter
  | [] => []
  | item :: rest =>
    match prune item with
    | some kept => kept :: pruneItems rest
    | none => pruneItems rest
termination_by structural items => items

end

mutual

/-- No group of the filter is empty. -/
def IsPruned : Filter → Prop
  | .and items => items ≠ [] ∧ ItemsPruned items
  | .or items => items ≠ [] ∧ ItemsPruned items
  | .not item => item.IsPruned
  | .leaf _ => True
termination_by structural filter => filter

/-- No group of any item is empty. -/
def ItemsPruned : List Filter → Prop
  | [] => True
  | item :: rest => item.IsPruned ∧ ItemsPruned rest
termination_by structural items => items

end

mutual

theorem isPruned_of_prune : ∀ {filter kept : Filter},
    filter.prune = some kept → kept.IsPruned
  | .and items, kept, h => by
    simp only [prune] at h
    split at h
    · cases h
    · rename_i hne
      cases h
      exact ⟨by simpa using hne, itemsPruned_pruneItems items⟩
  | .or items, kept, h => by
    simp only [prune] at h
    split at h
    · cases h
    · rename_i hne
      cases h
      exact ⟨by simpa using hne, itemsPruned_pruneItems items⟩
  | .not item, kept, h => by
    simp only [prune, Option.map_eq_some_iff] at h
    obtain ⟨inner, hinner, rfl⟩ := h
    simpa only [IsPruned] using isPruned_of_prune hinner
  | .leaf condition, kept, h => by
    simp only [prune, Option.some.injEq] at h
    subst h
    trivial

theorem itemsPruned_pruneItems : ∀ items : List Filter, ItemsPruned (pruneItems items)
  | [] => trivial
  | item :: rest => by
    simp only [pruneItems]
    split
    · rename_i kept hkept
      exact ⟨isPruned_of_prune hkept, itemsPruned_pruneItems rest⟩
    · exact itemsPruned_pruneItems rest

end

mutual

/-- A filter as a JSON value. -/
def toJson : Filter → Json
  | .and items => .object [("_and", .array (itemsToJson items))]
  | .or items => .object [("_or", .array (itemsToJson items))]
  | .not item => .object [("_not", item.toJson)]
  | .leaf condition => condition.toJson
termination_by structural filter => filter

/-- The items of a group as JSON values. -/
def itemsToJson : List Filter → List Json
  | [] => []
  | item :: rest => item.toJson :: itemsToJson rest
termination_by structural items => items

end

/-- The keys of a conjunction. -/
def andKeys : List String := ["_and", "and"]

/-- The keys of a disjunction. -/
def orKeys : List String := ["_or", "or"]

/-- The keys of a negation. -/
def notKeys : List String := ["_not", "not"]

/-- What the entries of an object say about one form: nothing, a part of a filter, or something that
does not read. -/
inductive Reading (α : Type) where
  | absent
  | present (value : α)
  | broken

/-- The value of a reading that is neither absent nor broken. -/
def Reading.value? {α : Type} : Reading α → Option α
  | .present value => some value
  | _ => none

/-- A reading put before the reading of the entries that follow; a form may be mentioned once. -/
def Reading.before {α : Type} (value : Option α) (rest : Reading α) : Reading α :=
  match value, rest with
  | some value, .absent => .present value
  | _, _ => .broken

mutual

/-- The filter that a JSON value stands for. -/
def ofJson? : Json → Option Filter
  | .object entries =>
    match (groupOf andKeys entries).value? with
    | some items => some (.and items)
    | none =>
      match (groupOf orKeys entries).value? with
      | some items => some (.or items)
      | none =>
        match (negatedOf entries).value? with
        | some item => some (.not item)
        | none => (Condition.ofJson (.object entries)).toOption.map .leaf
  | other => (Condition.ofJson other).toOption.map .leaf
termination_by structural value => value

/-- The items that a JSON value stands for, if it is an array of filters. -/
def itemsOf? : Json → Option (List Filter)
  | .array items => allOf? items
  | _ => none
termination_by structural value => value

/-- The filters that the values of a list stand for, if all of them stand for one. -/
def allOf? : List Json → Option (List Filter)
  | [] => some []
  | item :: rest =>
    match ofJson? item, allOf? rest with
    | some item, some rest => some (item :: rest)
    | _, _ => none
termination_by structural items => items

/-- What the entries of an object say about a group with the given keys. -/
def groupOf (keys : List String) : List (String × Json) → Reading (List Filter)
  | [] => .absent
  | (key, value) :: rest =>
    if keys.contains key then .before (itemsOf? value) (groupOf keys rest)
    else groupOf keys rest
termination_by structural entries => entries

/-- What the entries of an object say about a negation. -/
def negatedOf : List (String × Json) → Reading Filter
  | [] => .absent
  | (key, value) :: rest =>
    if notKeys.contains key then .before (ofJson? value) (negatedOf rest)
    else negatedOf rest
termination_by structural entries => entries

end

/-- The name under which filters are known in diagnostics. -/
def typeName : String := "BoolExpr"

/-- Reads a filter. -/
def ofJson (value : Json) : Except Json.Mismatch Filter :=
  match ofJson? value with
  | some filter => .ok filter
  | none => .error (.noAlternative typeName)

end Filter

end AirInquiry
