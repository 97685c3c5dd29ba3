import AirInquiry.Proofs.Constraints.WellFormed
import AirInquiry.Proofs.Lists

/-!
# What pruning leaves of a filter

A filter has parts: itself, and the parts of what it combines or negates. They are listed from the
outside in and from left to right, each with the connectives above it (`parts`).

Pruning works on every part by itself: the parts of what is left are, one after another, what is
left of the parts (`filterMap_kept_parts`). So exactly the parts that hold no condition are gone,
and every other part keeps its kind, its place among the others and the connectives above it
(`prune_isReduced`). In particular nothing is gone from a filter in which every part holds a
condition.
-/

set_option autoImplicit false
set_option relaxedAutoImplicit false

namespace AirInquiry.Filter

/-! ### Parts -/

/-- A way to make a filter of other filters. -/
inductive Connective where
  | and
  | or
  | not
  deriving DecidableEq

/-- What a filter is, apart from the filters in it. -/
inductive Kind where
  | connected (connective : Connective)
  | condition (condition : Condition)

/-- What a filter is, apart from the filters in it. -/
def kind : Filter → Kind
  | .and _ => .connected .and
  | .or _ => .connected .or
  | .not _ => .connected .not
  | .leaf condition => .condition condition

/-- A part of a filter, with the connectives above it from the outside in. -/
structure Part where
  above : List Connective
  filter : Filter

/-- Whether a part holds a condition. -/
def Part.hasLeaf (part : Part) : Bool := !part.filter.leaves.isEmpty

/-- The kind of a part with the connectives above it. -/
def Part.entry (part : Part) : List Connective × Kind := (part.above, part.filter.kind)

/-- The condition that a part is, with the connectives above it. -/
def Part.leaf? (part : Part) : Option (List Connective × Condition) :=
  match part.filter with
  | .leaf condition => some (part.above, condition)
  | _ => none

/-- What pruning leaves of a part. -/
def Part.kept? (part : Part) : Option Part := part.filter.prune.map fun kept ↦ ⟨part.above, kept⟩

mutual

/-- The parts of a filter that stands below some connectives, from the outside in and from left to
right. -/
def parts (above : List Connective) : Filter → List Part
  | .and items => ⟨above, .and items⟩ :: partsOfItems (above ++ [.and]) items
  | .or items => ⟨above, .or items⟩ :: partsOfItems (above ++ [.or]) items
  | .not item => ⟨above, .not item⟩ :: parts (above ++ [.not]) item
  | .leaf condition => [⟨above, .leaf condition⟩]
termination_by structural filter => filter

/-- The parts of items that stand below some connectives. -/
def partsOfItems (above : List Connective) : List Filter → List Part
  | [] => []
  | item :: rest => parts above item ++ partsOfItems above rest
termination_by structural items => items

end

/-- The kinds of all parts, each with the connectives above it. -/
def outline (filter : Filter) : List (List Connective × Kind) := (filter.parts []).map Part.entry

/-- The conditions of a filter, each with the connectives above it. -/
def placedLeaves (filter : Filter) : List (List Connective × Condition) :=
  (filter.parts []).filterMap Part.leaf?

variable {filter kept : Filter} {part : Part}

/-! ### Which filters are pruned -/

/-- Items without empty groups hold a condition if there are any. -/
theorem leavesOfItems_ne_nil_iff {items : List Filter} (h : ItemsPruned items) :
    leavesOfItems items ≠ [] ↔ items ≠ [] := by
  refine ⟨?_, fun hsome ↦ leavesOfItems_ne_nil hsome h⟩
  rintro hleaves rfl
  exact hleaves rfl

mutual

/-- No group is empty exactly if every part holds a condition. By recursion on the filter. -/
theorem isPruned_iff (above : List Connective) : ∀ {filter : Filter},
    filter.IsPruned ↔ ∀ part ∈ filter.parts above, part.filter.leaves ≠ []
  | .and items => by
    rw [parts, List.forall_mem_cons, ← itemsPruned_iff, IsPruned, leaves]
    exact and_congr_left fun hitems ↦ (leavesOfItems_ne_nil_iff hitems).symm
  | .or items => by
    rw [parts, List.forall_mem_cons, ← itemsPruned_iff, IsPruned, leaves]
    exact and_congr_left fun hitems ↦ (leavesOfItems_ne_nil_iff hitems).symm
  | .not item => by
    have hitem : item.IsPruned ↔ _ := isPruned_iff (above ++ [.not])
    rw [parts, List.forall_mem_cons, IsPruned, leaves]
    exact ⟨fun h ↦ ⟨leaves_ne_nil h, hitem.1 h⟩, fun h ↦ hitem.2 h.2⟩
  | .leaf condition => by
    rw [parts, List.forall_mem_singleton]
    exact iff_of_true trivial (List.cons_ne_nil condition [])

theorem itemsPruned_iff (above : List Connective) : ∀ {items : List Filter},
    ItemsPruned items ↔ ∀ part ∈ partsOfItems above items, part.filter.leaves ≠ []
  | [] => iff_of_true trivial (List.forall_mem_nil _)
  | item :: rest => by
    rw [ItemsPruned, partsOfItems, List.forall_mem_append, isPruned_iff above,
      itemsPruned_iff above]

end

theorem prune_eq_none_iff : filter.prune = none ↔ filter.leaves = [] := by
  have hleaves := leaves_prune filter
  cases hprune : filter.prune with
  | none =>
    rw [hprune] at hleaves
    exact iff_of_true rfl hleaves.symm
  | some kept =>
    rw [hprune] at hleaves
    refine iff_of_false (Option.some_ne_none kept) ?_
    rw [← hleaves]
    exact leaves_ne_nil (isPruned_of_prune hprune)

theorem leaves_of_prune (h : filter.prune = some kept) : kept.leaves = filter.leaves := by
  have hleaves := leaves_prune filter
  rwa [h] at hleaves

/-! ### Pruning part by part -/

mutual

/-- By recursion on the filter: what is left of a group is a part exactly if there is something left
of its items. -/
theorem filterMap_kept_parts (above : List Connective) : ∀ filter : Filter,
    (filter.parts above).filterMap Part.kept? = (filter.prune.map (parts above)).getD []
  | .and items => by
    have hitems := filterMap_kept_partsOfItems (above ++ [.and]) items
    rw [parts, List.filterMap_cons, hitems, Part.kept?, prune]
    cases pruneItems items <;> rfl
  | .or items => by
    have hitems := filterMap_kept_partsOfItems (above ++ [.or]) items
    rw [parts, List.filterMap_cons, hitems, Part.kept?, prune]
    cases pruneItems items <;> rfl
  | .not item => by
    have hitem := filterMap_kept_parts (above ++ [.not]) item
    rw [parts, List.filterMap_cons, hitem, Part.kept?, prune]
    cases item.prune <;> rfl
  | .leaf condition => rfl

theorem filterMap_kept_partsOfItems (above : List Connective) : ∀ items : List Filter,
    (partsOfItems above items).filterMap Part.kept? = partsOfItems above (pruneItems items)
  | [] => rfl
  | item :: rest => by
    have hitem := filterMap_kept_parts above item
    have hrest := filterMap_kept_partsOfItems above rest
    rw [partsOfItems, List.filterMap_append, hitem, hrest, pruneItems]
    cases item.prune <;> rfl

end

theorem parts_of_prune (h : filter.prune = some kept) (above : List Connective) :
    kept.parts above = (filter.parts above).filterMap Part.kept? := by
  rw [filterMap_kept_parts, h, Option.map_some, Option.getD_some]

theorem kind_of_prune (h : filter.prune = some kept) : kept.kind = filter.kind := by
  cases filter with
  | and items =>
    rw [prune] at h
    split_ifs at h
    cases h
    rfl
  | or items =>
    rw [prune] at h
    split_ifs at h
    cases h
    rfl
  | not item =>
    obtain ⟨inner, -, rfl⟩ := Option.map_eq_some_iff.1 h
    rfl
  | leaf condition =>
    cases h
    rfl

/-- A part is gone if it holds no condition, and else it keeps its kind and the connectives above
it. -/
theorem Part.kept?_cases (part : Part) :
    (part.hasLeaf = false ∧ part.kept? = none) ∨
      ∃ found, part.hasLeaf = true ∧ part.kept? = some found ∧ part.entry = found.entry := by
  rw [Part.hasLeaf, Part.kept?]
  cases hprune : part.filter.prune with
  | none =>
    rw [prune_eq_none_iff.1 hprune]
    exact .inl ⟨rfl, rfl⟩
  | some kept =>
    have hleaves : part.filter.leaves ≠ [] := by
      intro hnone
      rw [prune_eq_none_iff.2 hnone] at hprune
      cases hprune
    refine .inr ⟨⟨part.above, kept⟩, ?_, rfl, ?_⟩
    · rw [List.isEmpty_eq_false_iff.2 hleaves, Bool.not_false]
    · rw [Part.entry, Part.entry, kind_of_prune hprune]

theorem outline_of_prune (h : filter.prune = some kept) :
    kept.outline = ((filter.parts []).filter Part.hasLeaf).map Part.entry := by
  have hrelated : List.Forall₂ (fun part found ↦ Part.entry part = Part.entry found)
      ((filter.parts []).filter Part.hasLeaf) ((filter.parts []).filterMap Part.kept?) :=
    forall₂_filter_filterMap fun part _ ↦ part.kept?_cases
  rw [← List.forall₂_map_right_iff, ← List.forall₂_map_left_iff, List.forall₂_eq_eq_eq,
    ← parts_of_prune h] at hrelated
  exact hrelated.symm

theorem Part.leaf?_of_kept? {found : Part} (h : part.kept? = some found) :
    found.leaf? = part.leaf? := by
  obtain ⟨above, filter⟩ := part
  obtain ⟨kept, hkept, rfl⟩ := Option.map_eq_some_iff.1 h
  have hkind := kind_of_prune hkept
  cases filter <;> cases kept <;> cases hkind <;> rfl

/-- No condition is gone, and each keeps the connectives above it. -/
theorem placedLeaves_of_prune (h : filter.prune = some kept) :
    kept.placedLeaves = filter.placedLeaves := by
  rw [placedLeaves, parts_of_prune h, List.filterMap_filterMap, placedLeaves]
  refine List.filterMap_congr fun part _ ↦ ?_
  cases hkept : part.kept? with
  | some found => exact Part.leaf?_of_kept? hkept
  | none =>
    obtain ⟨above, filter⟩ := part
    cases filter with
    | leaf condition => cases hkept
    | _ => rfl

/-! ### The whole filter -/

/-- What is left of a filter: no group is empty, the conditions are the same in the same order and
below the same connectives, and the parts are those that hold a condition, each of its kind, in
their order and below the same connectives. -/
structure IsReduced (filter kept : Filter) : Prop where
  groups : ∀ part ∈ kept.parts [], part.filter ≠ .and [] ∧ part.filter ≠ .or []
  leaves : kept.leaves = filter.leaves
  placedLeaves : kept.placedLeaves = filter.placedLeaves
  outline : kept.outline = ((filter.parts []).filter Part.hasLeaf).map Part.entry

theorem isReduced_of_prune (h : filter.prune = some kept) : IsReduced filter kept where
  groups part hpart := by
    have hleaves := (isPruned_iff []).1 (isPruned_of_prune h) part hpart
    constructor
    · intro hempty
      rw [hempty] at hleaves
      exact hleaves rfl
    · intro hempty
      rw [hempty] at hleaves
      exact hleaves rfl
  leaves := leaves_of_prune h
  placedLeaves := placedLeaves_of_prune h
  outline := outline_of_prune h

/-- Nothing is left exactly of a filter without conditions. Otherwise what is left is the filter
without the parts that hold none, and pruning it again changes nothing. A filter is left as it is
exactly if every part holds a condition. -/
theorem prune_isReduced (filter : Filter) :
    (filter.prune = none ↔ filter.leaves = []) ∧
    (∀ kept ∈ filter.prune, IsReduced filter kept ∧ kept.prune = some kept) ∧
    (filter.prune = some filter ↔ ∀ part ∈ filter.parts [], part.filter.leaves ≠ []) := by
  refine ⟨prune_eq_none_iff, fun kept hkept ↦ ?_, ?_⟩
  · exact ⟨isReduced_of_prune hkept, prune_eq_self (isPruned_of_prune hkept)⟩
  · rw [← isPruned_iff]
    exact ⟨isPruned_of_prune, prune_eq_self⟩

/-- The hour is missing. -/
def hourMissing : Filter := .leaf (.compared ⟨"hour", by decide⟩ (.isNull true))

/-- A condition below a choice and a negation, among groups that hold none. -/
def hourAmongEmpty : Filter :=
  .and [.or [], .not (.and [.or []]), .not (.or [hourMissing, .and []])]

/-- A negation goes with the group that it negates, and a choice is left below the other one. -/
theorem prune_isReduced_hour :
    hourAmongEmpty.prune = some (.and [.not (.or [hourMissing])]) ∧
    IsReduced hourAmongEmpty (.and [.not (.or [hourMissing])]) ∧
    prune (.and [.not (.or [hourMissing])]) = some (.and [.not (.or [hourMissing])]) :=
  ⟨rfl, (prune_isReduced hourAmongEmpty).2.1 (.and [.not (.or [hourMissing])]) rfl⟩

end AirInquiry.Filter
