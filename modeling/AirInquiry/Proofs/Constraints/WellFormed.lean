import AirInquiry.Inference.Finder
import AirInquiry.Proofs.Constraints.RoundTrip
import AirInquiry.Proofs.Peer.Turns
import AirInquiry.Proofs.Query.RoundTrip

/-!
# Constraints are well formed

Constraints are made from raw parts, read from JSON, inferred from a question, or found with a
language model (`Constraints.IsObtained`). On every way the limit and the offset are words and the
limit is positive, sort keys are dotted paths of names, and the filter holds conditions, all of
which compare a name with an operand that its operator takes (`Constraints.IsWellFormed`).

Pruning a filter keeps its conditions in their order (`Filter.leaves_prune`), and a filter without
empty groups holds at least one (`Filter.leaves_ne_nil`). So whatever stands in the arguments of a
query has something in it: no object is empty, no list but the operand of a membership test, and
there is no null (`Constraints.isWellFormed_of_isObtained`).
-/

set_option autoImplicit false
set_option relaxedAutoImplicit false

namespace AirInquiry

open GraphQL (isName)

theorem eq_ok_of_toOption {ε α : Type} {result : Except ε α} {value : α}
    (h : result.toOption = some value) : result = .ok value := by
  cases result with
  | error error => cases h
  | ok found => exact congrArg Except.ok (Option.some.inj h)

theorem eq_ok_of_mapError {ε ε' α : Type} {change : ε → ε'} {result : Except ε α} {value : α}
    (h : result.mapError change = .ok value) : result = .ok value := by
  cases result with
  | error error => cases h
  | ok found => exact congrArg Except.ok (Except.ok.inj h)

/-! ### Conditions -/

/-- A value that is neither null nor composed of others. -/
def Json.IsScalar : Json → Prop
  | .bool _ => True
  | .number _ => True
  | .string _ => True
  | _ => False

/-- The operands that an operator takes: a range has exactly two bounds, membership has a list, a
test for null has a truth value, and everything else has one value. -/
def Operator.Takes : Operator → Json → Prop
  | .between, operand =>
    ∃ low high, operand = .array [low, high] ∧ low.IsScalar ∧ high.IsScalar
  | .oneOf, operand => ∃ items, operand = .array items ∧ ∀ item ∈ items, item.IsScalar
  | .noneOf, operand => ∃ items, operand = .array items ∧ ∀ item ∈ items, item.IsScalar
  | .isNull, operand => ∃ holds, operand = .bool holds
  | .isNotNull, operand => ∃ holds, operand = .bool holds
  | .scalar _, operand => operand.IsScalar

/-- The condition passes through names to a name, and compares it with an operand that its operator
takes. -/
def Condition.IsWellFormed : Condition → Prop
  | .compared field comparison =>
    isName field.text = true ∧ comparison.operator.Takes comparison.operand
  | .related relation inner => isName relation.text = true ∧ inner.IsWellFormed

theorem Scalar.isScalar_toJson (scalar : Scalar) : scalar.toJson.IsScalar := by
  cases scalar <;> trivial

theorem Comparison.takes_operand (comparison : Comparison) :
    comparison.operator.Takes comparison.operand := by
  have hitems : ∀ items : List Scalar, ∀ item ∈ items.map Scalar.toJson, item.IsScalar := by
    intro items item hitem
    obtain ⟨scalar, -, rfl⟩ := List.mem_map.1 hitem
    exact scalar.isScalar_toJson
  cases comparison with
  | scalar relation operand => exact operand.isScalar_toJson
  | oneOf items => exact ⟨_, rfl, hitems items⟩
  | noneOf items => exact ⟨_, rfl, hitems items⟩
  | between low high _ => exact ⟨_, _, rfl, low.isScalar_toJson, high.isScalar_toJson⟩
  | isNull holds => exact ⟨holds, rfl⟩
  | isNotNull holds => exact ⟨holds, rfl⟩

theorem Condition.isWellFormed (condition : Condition) : condition.IsWellFormed := by
  induction condition with
  | compared field comparison => exact ⟨field.isName, comparison.takes_operand⟩
  | related relation inner ih => exact ⟨relation.isName, ih⟩

/-! ### Conditions of a pruned filter -/

namespace Filter

mutual

/-- Pruning keeps the conditions in their order. By recursion on the filter. -/
theorem leaves_prune : ∀ filter : Filter, (filter.prune.map leaves).getD [] = filter.leaves
  | .and items => by
    have hitems := leavesOfItems_pruneItems items
    rw [prune, leaves, ← hitems]
    by_cases hempty : (pruneItems items).isEmpty
    · rw [if_pos hempty, List.isEmpty_iff.1 hempty]
      rfl
    · rw [if_neg hempty, Option.map_some, Option.getD_some, leaves]
  | .or items => by
    have hitems := leavesOfItems_pruneItems items
    rw [prune, leaves, ← hitems]
    by_cases hempty : (pruneItems items).isEmpty
    · rw [if_pos hempty, List.isEmpty_iff.1 hempty]
      rfl
    · rw [if_neg hempty, Option.map_some, Option.getD_some, leaves]
  | .not item => by
    have hitem := leaves_prune item
    rw [prune, leaves, ← hitem, Option.map_map]
    rfl
  | .leaf _ => rfl

theorem leavesOfItems_pruneItems : ∀ items : List Filter,
    leavesOfItems (pruneItems items) = leavesOfItems items
  | [] => rfl
  | item :: rest => by
    have hitem := leaves_prune item
    have hrest := leavesOfItems_pruneItems rest
    rw [pruneItems, leavesOfItems, ← hitem, ← hrest]
    cases item.prune with
    | none => rfl
    | some kept => rw [leavesOfItems, Option.map_some, Option.getD_some]

end

mutual

/-- By recursion on the filter. -/
theorem leaves_ne_nil : ∀ {filter : Filter}, filter.IsPruned → filter.leaves ≠ []
  | .and items, h => by
    rw [IsPruned] at h
    exact leavesOfItems_ne_nil h.1 h.2
  | .or items, h => by
    rw [IsPruned] at h
    exact leavesOfItems_ne_nil h.1 h.2
  | .not item, h => by
    rw [IsPruned] at h
    rw [leaves]
    exact leaves_ne_nil h
  | .leaf condition, _ => List.cons_ne_nil condition []

theorem leavesOfItems_ne_nil : ∀ {items : List Filter}, items ≠ [] → ItemsPruned items →
    leavesOfItems items ≠ []
  | [], hempty, _ => absurd rfl hempty
  | item :: rest, _, h => by
    rw [ItemsPruned] at h
    exact List.append_ne_nil_of_left_ne_nil (leaves_ne_nil h.1) _

end

end Filter

/-! ### Constraints -/

namespace Constraints

/-- What is true of constraints however they come about. -/
structure IsWellFormed (constraints : Constraints) : Prop where
  limit : ∀ count ∈ constraints.limit, 1 ≤ count.toNat ∧ count.toNat ≤ 4294967295
  offset : ∀ count ∈ constraints.offset, count.toNat ≤ 4294967295
  sortKeys : ∀ items ∈ constraints.presentSortKeys?, items ≠ [] ∧
    ∀ item ∈ items, ∀ piece ∈ Text.split '.' item.field, isName piece = true
  groups : ∀ filter ∈ constraints.filter, filter.IsPruned ∧ filter.leaves ≠ []
  conditions : ∀ filter ∈ constraints.filter, ∀ condition ∈ filter.leaves, condition.IsWellFormed

/-- The ways in which constraints come about: from raw parts, from JSON, from the words of a
question, and as the result of a search on any course of its dialogue. -/
inductive IsObtained (constraints : Constraints) : Prop where
  | made {filter : Option Filter} {sortKeys : List SortKey} {limit offset : Option Int}
      (h : make filter sortKeys limit offset = .ok constraints)
  | read {value : Json} (h : ofJson value = .ok constraints)
  | inferred {question today : String} {fields : List FieldChoice} {prior : Json.Entries}
      {names : NameIndex} (h : Inference.infer question fields prior names today = some constraints)
  | found {finder : ConstraintFinder} {question description : String} {fields : List FieldChoice}
      {prior : Json.Entries} {turns : List Turn}
      (h : (finder.find question description fields prior).Reaches turns
        (.done (some constraints)))

end Constraints

theorem SortKey.isName_of_mem_split (item : SortKey) :
    ∀ piece ∈ Text.split '.' item.field, isName piece = true := by
  intro piece hpiece
  rw [SortKey.split_field] at hpiece
  obtain ⟨name, -, rfl⟩ := List.mem_map.1 hpiece
  exact name.isName

theorem Constraints.isWellFormed (constraints : Constraints) : constraints.IsWellFormed where
  limit count hcount := by
    have hpos := UInt32.lt_iff_toNat_lt.1 (constraints.limit_pos count hcount)
    have hsize := count.toNat_lt_size
    have hzero : (0 : UInt32).toNat = 0 := rfl
    exact ⟨by omega, Nat.le_of_lt_succ hsize⟩
  offset count _ := Nat.le_of_lt_succ count.toNat_lt_size
  sortKeys items hitems := by
    rw [presentSortKeys?] at hitems
    split at hitems
    · cases hitems
    · next hne =>
      cases hitems
      exact ⟨by simpa using hne, fun item _ ↦ item.isName_of_mem_split⟩
  groups filter hfilter :=
    have hpruned := constraints.filter_isPruned filter hfilter
    ⟨hpruned, Filter.leaves_ne_nil hpruned⟩
  conditions _ _ condition _ := condition.isWellFormed

/-! ### Values with something in them -/

namespace GraphQL.Grammar.Value

mutual

/-- No null and no empty object stands in a value at any depth, and an empty list only under `_in`
or `_nin`. The key is the one that the value itself stands under, if it stands under one. -/
def IsFilled (key : Option String) : Value → Prop
  | .null => False
  | .list items => (items = [] → key = some "_in" ∨ key = some "_nin") ∧ ItemsFilled items
  | .object fields => fields ≠ [] ∧ FieldsFilled fields
  | _ => True
termination_by structural value => value

/-- `IsFilled` for every item of a list. -/
def ItemsFilled : List Value → Prop
  | [] => True
  | item :: rest => item.IsFilled none ∧ ItemsFilled rest
termination_by structural items => items

/-- `IsFilled` for every field of an object. -/
def FieldsFilled : List (String × Value) → Prop
  | [] => True
  | (key, value) :: rest => value.IsFilled (some key) ∧ FieldsFilled rest
termination_by structural fields => fields

end

theorem itemsFilled_of_forall {items : List Value} (h : ∀ item ∈ items, item.IsFilled none) :
    ItemsFilled items := by
  induction items with
  | nil => trivial
  | cons first rest ih => exact ⟨h first (.head _), ih fun item hitem ↦ h item (.tail _ hitem)⟩

theorem fieldsFilled_append {first second : List (String × Value)} (hfirst : FieldsFilled first)
    (hsecond : FieldsFilled second) : FieldsFilled (first ++ second) := by
  induction first with
  | nil => exact hsecond
  | cons field rest ih => exact ⟨hfirst.1, ih hfirst.2⟩

end GraphQL.Grammar.Value

open GraphQL.Grammar.Value (IsFilled ItemsFilled FieldsFilled)

theorem Scalar.isFilled_tree (scalar : Scalar) (key : Option String) :
    scalar.tree.IsFilled key := by
  cases scalar with
  | number value => cases value <;> trivial
  | _ => trivial

theorem Comparison.fieldsFilled_trees (comparison : Comparison) :
    FieldsFilled comparison.trees := by
  have hitems : ∀ items : List Scalar, ItemsFilled (items.map Scalar.tree) := by
    intro items
    refine GraphQL.Grammar.Value.itemsFilled_of_forall fun item hitem ↦ ?_
    obtain ⟨scalar, -, rfl⟩ := List.mem_map.1 hitem
    exact scalar.isFilled_tree none
  cases comparison with
  | scalar relation operand => exact ⟨operand.isFilled_tree _, trivial⟩
  | oneOf items => exact ⟨⟨fun _ ↦ .inl rfl, hitems items⟩, trivial⟩
  | noneOf items => exact ⟨⟨fun _ ↦ .inr rfl, hitems items⟩, trivial⟩
  | between low high _ => exact ⟨low.isFilled_tree _, high.isFilled_tree _, trivial⟩
  | isNull holds => exact ⟨trivial, trivial⟩
  | isNotNull holds => exact ⟨trivial, trivial⟩

theorem Comparison.trees_ne_nil (comparison : Comparison) : comparison.trees ≠ [] := by
  cases comparison <;> exact List.cons_ne_nil _ _

theorem Condition.fieldsFilled_tree (condition : Condition) : FieldsFilled [condition.tree] := by
  induction condition with
  | compared field comparison =>
    exact ⟨⟨comparison.trees_ne_nil, comparison.fieldsFilled_trees⟩, trivial⟩
  | related relation inner ih => exact ⟨⟨List.cons_ne_nil _ _, ih⟩, trivial⟩

namespace Filter

theorem itemTrees_ne_nil {items : List Filter} (h : items ≠ []) : itemTrees items ≠ [] := by
  cases items with
  | nil => exact absurd rfl h
  | cons item rest => exact List.cons_ne_nil _ _

mutual

/-- By recursion on the filter. -/
theorem fieldsFilled_tree : ∀ {filter : Filter}, filter.IsPruned → FieldsFilled [filter.tree]
  | .and items, h => by
    rw [IsPruned] at h
    exact ⟨⟨fun hempty ↦ absurd hempty (itemTrees_ne_nil h.1), itemsFilled_itemTrees h.2⟩, trivial⟩
  | .or items, h => by
    rw [IsPruned] at h
    exact ⟨⟨fun hempty ↦ absurd hempty (itemTrees_ne_nil h.1), itemsFilled_itemTrees h.2⟩, trivial⟩
  | .not item, h => by
    rw [IsPruned] at h
    exact ⟨⟨List.cons_ne_nil _ _, fieldsFilled_tree h⟩, trivial⟩
  | .leaf condition, _ => condition.fieldsFilled_tree

theorem itemsFilled_itemTrees : ∀ {items : List Filter}, ItemsPruned items →
    ItemsFilled (itemTrees items)
  | [], _ => trivial
  | item :: rest, h => by
    rw [ItemsPruned] at h
    exact ⟨⟨List.cons_ne_nil _ _, fieldsFilled_tree h.1⟩, itemsFilled_itemTrees h.2⟩

end

end Filter

theorem SortKey.isFilled_tree (item : SortKey) (key : Option String) : item.tree.IsFilled key := by
  rw [SortKey.tree]
  induction item.path generalizing key with
  | nil => trivial
  | cons name rest ih => exact ⟨List.cons_ne_nil _ _, ih _, trivial⟩

namespace Constraints

variable {constraints : Constraints}

/-- Only what well-formed constraints say of their groups is needed: everything else that is stated
has something in it anyway. -/
theorem fieldsFilled_argumentTrees (h : constraints.IsWellFormed) :
    FieldsFilled constraints.argumentTrees := by
  have hoption : ∀ {α : Type} {name : String} {toTree : α → GraphQL.Grammar.Value}
      {value : Option α}, (∀ present ∈ value, (toTree present).IsFilled (some name)) →
      FieldsFilled (value.map fun present ↦ (name, toTree present)).toList := by
    intro α name toTree value hvalue
    cases value with
    | none => trivial
    | some present => exact ⟨hvalue present rfl, trivial⟩
  have hsortKeys : FieldsFilled (if constraints.sortKeys = [] then []
      else [("order_by", .list (constraints.sortKeys.map SortKey.tree))]) := by
    by_cases hnone : constraints.sortKeys = []
    · rw [if_pos hnone]
      trivial
    · rw [if_neg hnone]
      refine ⟨⟨fun hempty ↦ absurd (List.map_eq_nil_iff.1 hempty) hnone, ?_⟩, trivial⟩
      refine GraphQL.Grammar.Value.itemsFilled_of_forall fun tree htree ↦ ?_
      obtain ⟨item, -, rfl⟩ := List.mem_map.1 htree
      exact item.isFilled_tree none
  refine GraphQL.Grammar.Value.fieldsFilled_append (GraphQL.Grammar.Value.fieldsFilled_append
    (GraphQL.Grammar.Value.fieldsFilled_append ?_ hsortKeys) ?_) ?_
  · exact hoption fun filter hfilter ↦
      ⟨List.cons_ne_nil _ _, Filter.fieldsFilled_tree (h.groups filter hfilter).1⟩
  · exact hoption fun _ _ ↦ trivial
  · exact hoption fun _ _ ↦ trivial

/-- Constraints that are made from raw parts. -/
def IsMade (constraints : Constraints) : Prop :=
  ∃ (filter : Option Filter) (sortKeys : List SortKey) (limit offset : Option Int),
    make filter sortKeys limit offset = .ok constraints

theorem isMade_of_ofJson {value : Json} (h : ofJson value = .ok constraints) :
    constraints.IsMade := by
  obtain ⟨draft, -, hfinish⟩ := Filter.exists_of_bind_eq_ok h
  obtain ⟨filter, -, hmake⟩ := Filter.exists_of_bind_eq_ok (eq_ok_of_mapError hfinish)
  exact ⟨filter, draft.sortKeys.getD [], draft.limit, draft.offset, hmake⟩

theorem isMade_of_infer {question today : String} {fields : List FieldChoice}
    {prior : Json.Entries} {names : NameIndex}
    (h : Inference.infer question fields prior names today = some constraints) :
    constraints.IsMade := by
  simp only [Inference.infer] at h
  split at h
  · cases h
  · have hmake := eq_ok_of_toOption h
    exact ⟨_, _, _, _, hmake⟩

/-- On every course, what a search finds is made from raw parts: with the rules it is inferred, and
with the model it is read from a reply. -/
theorem ensures_find (finder : ConstraintFinder) (question description : String)
    (fields : List FieldChoice) (prior : Json.Entries) :
    (finder.find question description fields prior).Ensures (fun _ ↦ True) fun result ↦
      ∀ constraints ∈ result, constraints.IsMade := by
  unfold ConstraintFinder.find
  by_cases hempty : fields.isEmpty
  · rw [if_pos hempty]
    exact .done nofun
  · rw [if_neg hempty]
    cases finder.source with
    | rules => exact .done fun constraints h ↦ isMade_of_infer h
    | model =>
      refine .complete trivial fun reply ↦ .done fun constraints h ↦ ?_
      have hreply := eq_ok_of_toOption (Option.filter_eq_some_iff.1 h).1
      cases reply with
      | error error => cases hreply
      | ok value => exact isMade_of_ofJson (eq_ok_of_mapError hreply)

theorem isMade_of_isObtained (h : constraints.IsObtained) : constraints.IsMade := by
  cases h with
  | made h => exact ⟨_, _, _, _, h⟩
  | read h => exact isMade_of_ofJson h
  | inferred h => exact isMade_of_infer h
  | found h => exact (h.of_ensures (ensures_find _ _ _ _ _)).2 constraints rfl

/-- Making constraints keeps the conditions of the filter in their order. -/
theorem leaves_of_make {filter : Option Filter} {sortKeys : List SortKey}
    {limit offset : Option Int} (h : make filter sortKeys limit offset = .ok constraints) :
    (constraints.filter.map Filter.leaves).getD [] = (filter.map Filter.leaves).getD [] := by
  rw [(make_eq_ok_iff.1 h).1]
  cases filter with
  | none => rfl
  | some filter => exact filter.leaves_prune

open GraphQL (Value) in
/-- However constraints come about, they are made from raw parts and hold the conditions of the raw
filter, and they are well formed. In the arguments of any query that is built with them nothing is
null or empty but operands of membership tests, and if the table is a name, these are the arguments
that the text of the query is read with. -/
theorem isWellFormed_of_isObtained (h : constraints.IsObtained) :
    (∃ (filter : Option Filter) (sortKeys : List SortKey) (limit offset : Option Int),
      make filter sortKeys limit offset = .ok constraints ∧
        (constraints.filter.map Filter.leaves).getD [] = (filter.map Filter.leaves).getD []) ∧
    constraints.IsWellFormed ∧ ∀ (table : String) (fields : List FieldChoice),
      FieldsFilled (Value.fieldTrees (Query.build table fields (some constraints)).arguments) ∧
      (isName table = true →
        GraphQL.Grammar.definitionsOf? (Query.build table fields (some constraints)).text =
          some [.operation .query none [] [] [.field none table
            (Value.fieldTrees (Query.build table fields (some constraints)).arguments) []
            (GraphQL.Selection.trees
              (Query.build table fields (some constraints)).selection)]]) := by
  obtain ⟨filter, sortKeys, limit, offset, hmake⟩ := isMade_of_isObtained h
  refine ⟨⟨filter, sortKeys, limit, offset, hmake, leaves_of_make hmake⟩,
    constraints.isWellFormed, fun table fields ↦ ⟨?_, fun htable ↦ ?_⟩⟩
  · rw [Query.fieldTrees_build]
    exact fieldsFilled_argumentTrees constraints.isWellFormed
  · exact GraphQL.Query.definitionsOf?_text htable (Query.fieldsWritable_build table fields _)
      (Query.selectionOf_ne_nil fields)

/-- A disjunction without items is gone from a conjunction, and with it the only empty list. -/
theorem isWellFormed_of_make_province :
    ∃ constraints : Constraints,
      make (some (.and [.or [], .leaf (.compared ⟨"province", by decide⟩ (.oneOf []))]))
          [] (some 5) none = .ok constraints ∧
        constraints.filter =
          some (.and [.leaf (.compared ⟨"province", by decide⟩ (.oneOf []))]) ∧
        constraints.IsWellFormed ∧
        GraphQL.Grammar.definitionsOf? (Query.build "stations" [] (some constraints)).text =
          some [.operation .query none [] [] [.field none "stations"
            [("where", .object [("_and", .list [.object [("province",
                .object [("_in", .list [])])]])]),
              ("limit", .integer "5")] [] [.field none "id" [] [] []]]] := by
  refine ⟨_, rfl, rfl, ?_⟩
  have hobtained := @IsObtained.made _
    (some (.and [.or [], .leaf (.compared ⟨"province", by decide⟩ (.oneOf []))])) [] (some 5) none
    rfl
  obtain ⟨-, hwellFormed, hquery⟩ := isWellFormed_of_isObtained hobtained
  refine ⟨hwellFormed, ((hquery "stations" []).2 (by decide)).trans ?_⟩
  rfl

end Constraints

end AirInquiry
