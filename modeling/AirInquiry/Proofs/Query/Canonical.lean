import AirInquiry.Proofs.GraphQL.Name
import AirInquiry.Proofs.Query.RoundTrip
import Mathlib.Data.List.Basic
import Mathlib.Data.List.Forall2

/-!
# What the text of a filter determines

The text of a constant determines the constant, because it can be read (`Value.text_injective`). So
two filters have the same text exactly if the same constants state them.

The constants tell filters apart up to two things: presence is stated as the denial of absence, and
a condition through a relation `_not` is stated like a negation. `Filter.canonical` writes presence
as absence and such conditions as negations, which leaves the constants as they are
(`Filter.entry_canonical`). Canonical filters with the same constants are alike
(`Filter.entry_eq_iff`): they are equal up to numbers, which are compared by their text. So two
filters have the same text exactly if they are alike when they are made canonical
(`Filter.text_eq_iff`).
-/

set_option autoImplicit false
set_option relaxedAutoImplicit false

namespace AirInquiry

open GraphQL (Value)

/-! ### Constants -/

namespace GraphQL.Value

mutual

/-- The constant that is read as a value of the grammar. No constant is read as a parameter or a
block. -/
def ofTree : Grammar.Value → Value
  | .integer text => .number text
  | .float text => .number text
  | .string text => .string text
  | .boolean value => .boolean value
  | .enumeration name => .word name
  | .list items => .list (ofItemTrees items)
  | .object fields => .object (ofFieldTrees fields)
  | _ => .null
termination_by structural tree => tree

/-- The items of a list. -/
def ofItemTrees : List Grammar.Value → List Value
  | [] => []
  | item :: rest => ofTree item :: ofItemTrees rest
termination_by structural items => items

/-- The fields of an object, under their keys. -/
def ofFieldTrees : List (String × Grammar.Value) → List (String × Value)
  | [] => []
  | (key, value) :: rest => (key, ofTree value) :: ofFieldTrees rest
termination_by structural fields => fields

end

mutual

theorem ofTree_tree : ∀ value : Value, ofTree value.tree = value
  | .null => rfl
  | .boolean _ => rfl
  | .number text => by
    rw [tree, numberTree]
    split <;> rfl
  | .string _ => rfl
  | .word _ => rfl
  | .list items => by rw [tree, ofTree, ofItemTrees_itemTrees items]
  | .object fields => by rw [tree, ofTree, ofFieldTrees_fieldTrees fields]

theorem ofItemTrees_itemTrees : ∀ items : List Value, ofItemTrees (itemTrees items) = items
  | [] => rfl
  | item :: rest => by rw [itemTrees, ofItemTrees, ofTree_tree item, ofItemTrees_itemTrees rest]

theorem ofFieldTrees_fieldTrees : ∀ fields : List (String × Value),
    ofFieldTrees (fieldTrees fields) = fields
  | [] => rfl
  | (key, value) :: rest => by
    rw [fieldTrees, ofFieldTrees, ofTree_tree value, ofFieldTrees_fieldTrees rest]

end

/-- The text of a writable constant determines it. -/
theorem text_injective {first second : Value} (hfirst : first.IsWritable)
    (hsecond : second.IsWritable) (h : first.text = second.text) : first = second := by
  have htokens : first.tokens = second.tokens := by
    have hread := (spells_text hfirst).ofText
    rw [h, (spells_text hsecond).ofText] at hread
    exact (Option.some.inj hread).symm
  have htree := reading_tokens true hfirst _ (Nat.le_refl _) []
  rw [htokens, reading_tokens true hsecond _ (Nat.le_refl _) []] at htree
  have hsame : second.tree = first.tree := congrArg Prod.fst (Option.some.inj htree)
  rw [← ofTree_tree first, ← hsame, ofTree_tree]

end GraphQL.Value

/-! ### Canonical filters -/

/-- A comparison with presence stated as the denial of absence. -/
def Comparison.canonical : Comparison → Comparison
  | .isNotNull holds => .isNull !holds
  | comparison => comparison

/-- A condition with presence stated as the denial of absence. -/
def Condition.canonical : Condition → Condition
  | .compared field comparison => .compared field comparison.canonical
  | .related relation inner => .related relation inner.canonical

namespace Filter

/-- A condition as a filter, where a condition through a relation `_not` is a negation. -/
def ofCondition : Condition → Filter
  | .compared field comparison => .leaf (.compared field comparison.canonical)
  | .related relation inner =>
    if relation.text = "_not" then .not (ofCondition inner)
    else .leaf (.related relation inner.canonical)

mutual

/-- A filter with presence stated as the denial of absence, and with negations in the place of
conditions through a relation `_not`. -/
def canonical : Filter → Filter
  | .and items => .and (canonicalItems items)
  | .or items => .or (canonicalItems items)
  | .not item => .not item.canonical
  | .leaf condition => ofCondition condition
termination_by structural filter => filter

/-- The items of a group in canonical form. -/
def canonicalItems : List Filter → List Filter
  | [] => []
  | item :: rest => item.canonical :: canonicalItems rest
termination_by structural items => items

end

end Filter

/-- No comparison asks for the presence of a value. -/
def Comparison.IsCanonical : Comparison → Prop
  | .isNotNull _ => False
  | _ => True

/-- No comparison asks for the presence of a value. -/
def Condition.IsCanonical : Condition → Prop
  | .compared _ comparison => comparison.IsCanonical
  | .related _ inner => inner.IsCanonical

/-- The condition does not pass through a relation `_not`. -/
def Condition.IsNegation : Condition → Prop
  | .compared _ _ => False
  | .related relation _ => relation.text = "_not"

namespace Filter

mutual

/-- No comparison asks for the presence of a value, and no leaf passes through a relation `_not`. -/
def IsCanonical : Filter → Prop
  | .and items => ItemsCanonical items
  | .or items => ItemsCanonical items
  | .not item => item.IsCanonical
  | .leaf condition => condition.IsCanonical ∧ ¬ condition.IsNegation
termination_by structural filter => filter

/-- `IsCanonical` for every item of a group. -/
def ItemsCanonical : List Filter → Prop
  | [] => True
  | item :: rest => item.IsCanonical ∧ ItemsCanonical rest
termination_by structural items => items

end

end Filter

theorem Comparison.isCanonical_canonical (comparison : Comparison) :
    comparison.canonical.IsCanonical := by
  cases comparison <;> trivial

theorem Condition.isCanonical_canonical (condition : Condition) :
    condition.canonical.IsCanonical := by
  induction condition with
  | compared field comparison => exact comparison.isCanonical_canonical
  | related relation inner ih => exact ih

namespace Filter

theorem isCanonical_ofCondition (condition : Condition) : (ofCondition condition).IsCanonical := by
  induction condition with
  | compared field comparison => exact ⟨comparison.isCanonical_canonical, id⟩
  | related relation inner ih =>
    rw [ofCondition]
    split
    · exact ih
    · next hrelation => exact ⟨inner.isCanonical_canonical, hrelation⟩

mutual

theorem isCanonical_canonical : ∀ filter : Filter, filter.canonical.IsCanonical
  | .and items => itemsCanonical_canonicalItems items
  | .or items => itemsCanonical_canonicalItems items
  | .not item => isCanonical_canonical item
  | .leaf condition => isCanonical_ofCondition condition

theorem itemsCanonical_canonicalItems : ∀ items : List Filter,
    ItemsCanonical (canonicalItems items)
  | [] => trivial
  | item :: rest => ⟨isCanonical_canonical item, itemsCanonical_canonicalItems rest⟩

end

end Filter

/-! ### Canonical filters are stated by the same constants -/

theorem Comparison.fields_canonical (comparison : Comparison) :
    comparison.canonical.fields = comparison.fields := by
  cases comparison <;> rfl

theorem Condition.entry_canonical (condition : Condition) :
    condition.canonical.entry = condition.entry := by
  induction condition with
  | compared field comparison => rw [canonical, entry, comparison.fields_canonical, entry]
  | related relation inner ih => rw [canonical, entry, ih, entry]

namespace Filter

theorem entry_ofCondition (condition : Condition) :
    (ofCondition condition).entry = condition.entry := by
  induction condition with
  | compared field comparison =>
    rw [ofCondition, entry, Condition.entry, comparison.fields_canonical, Condition.entry]
  | related relation inner ih =>
    rw [ofCondition]
    split
    · next hrelation => rw [entry, ih, Condition.entry, hrelation]
    · rw [entry, Condition.entry, inner.entry_canonical, Condition.entry]

mutual

theorem entry_canonical : ∀ filter : Filter, filter.canonical.entry = filter.entry
  | .and items => by rw [canonical, entry, itemObjects_canonicalItems items, entry]
  | .or items => by rw [canonical, entry, itemObjects_canonicalItems items, entry]
  | .not item => by rw [canonical, entry, entry_canonical item, entry]
  | .leaf condition => entry_ofCondition condition

theorem itemObjects_canonicalItems : ∀ items : List Filter,
    itemObjects (canonicalItems items) = itemObjects items
  | [] => rfl
  | item :: rest => by
    rw [canonicalItems, itemObjects, entry_canonical item, itemObjects_canonicalItems rest,
      itemObjects]

end

end Filter

/-! ### Alike filters -/

/-- Scalars are equal, where numbers are compared by their text. -/
inductive Scalar.Alike : Scalar → Scalar → Prop where
  | bool (value : Bool) : Alike (.bool value) (.bool value)
  | number {first second : Json.Number} (h : first.text = second.text) :
      Alike (.number first) (.number second)
  | string (text : String) : Alike (.string text) (.string text)

/-- Comparisons have the same operator and alike operands. -/
inductive Comparison.Alike : Comparison → Comparison → Prop where
  | scalar (relation : Relation) {first second : Scalar} (h : first.Alike second) :
      Alike (.scalar relation first) (.scalar relation second)
  | oneOf {first second : List Scalar} (h : List.Forall₂ Scalar.Alike first second) :
      Alike (.oneOf first) (.oneOf second)
  | noneOf {first second : List Scalar} (h : List.Forall₂ Scalar.Alike first second) :
      Alike (.noneOf first) (.noneOf second)
  | between {low high otherLow otherHigh : Scalar} (inOrder : Scalar.reversed low high = false)
      (otherInOrder : Scalar.reversed otherLow otherHigh = false) (hlow : low.Alike otherLow)
      (hhigh : high.Alike otherHigh) :
      Alike (.between low high inOrder) (.between otherLow otherHigh otherInOrder)
  | isNull (holds : Bool) : Alike (.isNull holds) (.isNull holds)
  | isNotNull (holds : Bool) : Alike (.isNotNull holds) (.isNotNull holds)

/-- Conditions compare the same field alike, or pass through the same relation to alike conditions.
-/
inductive Condition.Alike : Condition → Condition → Prop where
  | compared (field : GraphQL.Name) {first second : Comparison} (h : first.Alike second) :
      Alike (.compared field first) (.compared field second)
  | related (relation : GraphQL.Name) {first second : Condition} (h : first.Alike second) :
      Alike (.related relation first) (.related relation second)

namespace Filter

mutual

/-- Filters are built alike from alike conditions. -/
inductive Alike : Filter → Filter → Prop where
  | and {first second : List Filter} (h : ItemsAlike first second) :
      Alike (.and first) (.and second)
  | or {first second : List Filter} (h : ItemsAlike first second) : Alike (.or first) (.or second)
  | not {first second : Filter} (h : Alike first second) : Alike (.not first) (.not second)
  | leaf {first second : Condition} (h : first.Alike second) : Alike (.leaf first) (.leaf second)

/-- The items of two groups are alike one by one. -/
inductive ItemsAlike : List Filter → List Filter → Prop where
  | nil : ItemsAlike [] []
  | cons {first second : Filter} {rest others : List Filter} (h : Alike first second)
      (hrest : ItemsAlike rest others) : ItemsAlike (first :: rest) (second :: others)

end

end Filter

namespace Scalar

theorem ofJson_toJson_eq_iff {first second : Scalar} :
    Value.ofJson first.toJson = Value.ofJson second.toJson ↔ first.Alike second := by
  constructor
  · intro h
    cases first with
    | bool value =>
      cases second <;> cases h
      exact .bool value
    | number value =>
      cases second with
      | number other =>
        have htext : String.ofList value.text = String.ofList other.text := Value.number.inj h
        exact .number (String.ofList_injective htext)
      | _ => cases h
    | string text =>
      cases second <;> cases h
      exact .string text
  · intro h
    cases h with
    | bool value => rfl
    | number h => exact congrArg (Value.number ∘ String.ofList) h
    | string text => rfl

theorem itemsOfJson_eq_iff {first second : List Scalar} :
    Value.itemsOfJson (first.map toJson) = Value.itemsOfJson (second.map toJson) ↔
      List.Forall₂ Alike first second := by
  induction first generalizing second with
  | nil => cases second <;> simp [Value.itemsOfJson]
  | cons item rest ih =>
    cases second with
    | nil => simp [Value.itemsOfJson]
    | cons other others =>
      simp only [List.map_cons, Value.itemsOfJson, List.cons.injEq, ofJson_toJson_eq_iff, ih,
        List.forall₂_cons]

end Scalar

/-- The keys of the fields that state a comparison of an operator. -/
def Operator.keys : Operator → List String
  | .between => ["_gte", "_lte"]
  | operator => [operator.text]

theorem Operator.mem_all (operator : Operator) : operator ∈ all := by
  cases operator with
  | scalar relation => cases relation <;> decide
  | _ => decide

theorem Operator.text_notMem (operator : Operator) : operator.text ∉ ["_and", "_or"] := by
  have hall : ∀ one ∈ all, one.text ∉ ["_and", "_or"] := by decide
  exact hall operator operator.mem_all

theorem Operator.eq_of_keys_eq {first second : Operator} (h : first.keys = second.keys) :
    first = second := by
  have hall : ∀ one ∈ all, ∀ other ∈ all, one.keys = other.keys → one = other := by decide
  exact hall first first.mem_all second second.mem_all h

namespace Comparison

variable {first second : Comparison}

theorem map_fst_fields (h : first.IsCanonical) :
    first.fields.map Prod.fst = first.operator.keys := by
  cases first with
  | isNotNull holds => exact absurd h id
  | _ => rfl

/-- Canonical comparisons with the same fields are alike, because the keys tell the operator. -/
theorem alike_of_fields_eq (hfirst : first.IsCanonical) (hsecond : second.IsCanonical)
    (h : first.fields = second.fields) : first.Alike second := by
  have hoperator : first.operator = second.operator := by
    refine Operator.eq_of_keys_eq ?_
    rw [← map_fst_fields hfirst, ← map_fst_fields hsecond, h]
  cases first with
  | scalar relation operand =>
    cases second with
    | scalar other another =>
      cases hoperator
      exact .scalar relation (Scalar.ofJson_toJson_eq_iff.1 (Prod.mk.inj (List.cons.inj h).1).2)
    | _ => cases hoperator
  | oneOf items =>
    cases second with
    | oneOf others =>
      have hvalue := Value.list.inj (Prod.mk.inj (List.cons.inj h).1).2
      exact .oneOf (Scalar.itemsOfJson_eq_iff.1 hvalue)
    | _ => cases hoperator
  | noneOf items =>
    cases second with
    | noneOf others =>
      have hvalue := Value.list.inj (Prod.mk.inj (List.cons.inj h).1).2
      exact .noneOf (Scalar.itemsOfJson_eq_iff.1 hvalue)
    | _ => cases hoperator
  | between low high inOrder =>
    cases second with
    | between otherLow otherHigh otherInOrder =>
      obtain ⟨hlow, hrest⟩ := List.cons.inj h
      exact .between inOrder otherInOrder (Scalar.ofJson_toJson_eq_iff.1 (Prod.mk.inj hlow).2)
        (Scalar.ofJson_toJson_eq_iff.1 (Prod.mk.inj (List.cons.inj hrest).1).2)
    | _ => cases hoperator
  | isNull holds =>
    cases second with
    | isNull other =>
      cases h
      exact .isNull holds
    | _ => cases hoperator
  | isNotNull holds => exact absurd hfirst id

theorem fields_eq_of_alike (h : first.Alike second) : first.fields = second.fields := by
  cases h with
  | scalar relation h => simp [fields, operator, operand, Scalar.ofJson_toJson_eq_iff.2 h]
  | oneOf h => simp [fields, operator, operand, Value.ofJson, Scalar.itemsOfJson_eq_iff.2 h]
  | noneOf h => simp [fields, operator, operand, Value.ofJson, Scalar.itemsOfJson_eq_iff.2 h]
  | between _ _ hlow hhigh =>
    simp [fields, Scalar.ofJson_toJson_eq_iff.2 hlow, Scalar.ofJson_toJson_eq_iff.2 hhigh]
  | isNull holds => rfl
  | isNotNull holds => rfl

theorem fields_eq_iff (hfirst : first.IsCanonical) (hsecond : second.IsCanonical) :
    first.fields = second.fields ↔ first.Alike second :=
  ⟨alike_of_fields_eq hfirst hsecond, fields_eq_of_alike⟩

theorem ofJson_ne_object (operand : Scalar) (inner : List (String × Value)) :
    Value.ofJson operand.toJson ≠ .object inner := by
  intro h
  cases operand <;> cases h

/-- The fields of a comparison have other keys than groups, and their values are no objects. -/
theorem of_mem_fields {field : String × Value} (h : field ∈ first.fields) :
    field.1 ∉ ["_and", "_or"] ∧ ∀ inner, field.2 ≠ .object inner := by
  cases first with
  | scalar relation operand =>
    obtain rfl := List.mem_singleton.1 h
    exact ⟨Operator.text_notMem (.scalar relation), ofJson_ne_object operand⟩
  | oneOf items =>
    obtain rfl := List.mem_singleton.1 h
    exact ⟨Operator.text_notMem .oneOf, fun inner hinner ↦ by cases hinner⟩
  | noneOf items =>
    obtain rfl := List.mem_singleton.1 h
    exact ⟨Operator.text_notMem .noneOf, fun inner hinner ↦ by cases hinner⟩
  | between low high _ =>
    rcases List.mem_pair.1 h with rfl | rfl
    · exact ⟨Operator.text_notMem (.scalar .greaterOrEqual), ofJson_ne_object low⟩
    · exact ⟨Operator.text_notMem (.scalar .lessOrEqual), ofJson_ne_object high⟩
  | isNull holds =>
    obtain rfl := List.mem_singleton.1 h
    exact ⟨Operator.text_notMem .isNull, fun inner hinner ↦ by cases hinner⟩
  | isNotNull holds =>
    obtain rfl := List.mem_singleton.1 h
    exact ⟨Operator.text_notMem .isNull, fun inner hinner ↦ by cases hinner⟩

/-- No filter is stated by the fields of a comparison. -/
theorem fields_ne_entry (filter : Filter) : first.fields ≠ [filter.entry] := by
  intro h
  have hmem : filter.entry ∈ first.fields := by
    rw [h]
    exact .head _
  obtain ⟨hkey, hobject⟩ := of_mem_fields hmem
  cases filter with
  | and items => exact hkey (.head _)
  | or items => exact hkey (.tail _ (.head _))
  | not item => exact hobject _ rfl
  | leaf condition =>
    cases condition with
    | compared field comparison => exact hobject _ rfl
    | related relation inner => exact hobject _ rfl

end Comparison

/-- Canonical conditions with the same field are alike. -/
theorem Condition.entry_eq_iff {first second : Condition} (hfirst : first.IsCanonical)
    (hsecond : second.IsCanonical) : first.entry = second.entry ↔ first.Alike second := by
  constructor
  · intro h
    induction first generalizing second with
    | compared field comparison =>
      obtain ⟨hfield, hvalue⟩ := Prod.mk.inj h
      cases second with
      | compared other another =>
        obtain rfl := GraphQL.Name.text_injective hfield
        exact .compared field
          ((Comparison.fields_eq_iff hfirst hsecond).1 (Value.object.inj hvalue))
      | related relation inner =>
        exact absurd (Value.object.inj hvalue) (Comparison.fields_ne_entry (.leaf inner))
    | related relation inner ih =>
      obtain ⟨hrelation, hvalue⟩ := Prod.mk.inj h
      cases second with
      | compared field comparison =>
        exact absurd (Value.object.inj hvalue).symm (Comparison.fields_ne_entry (.leaf inner))
      | related other another =>
        obtain rfl := GraphQL.Name.text_injective hrelation
        exact .related relation (ih hfirst hsecond (List.cons.inj (Value.object.inj hvalue)).1)
  · intro h
    induction h with
    | compared field h => rw [entry, (Comparison.fields_eq_iff hfirst hsecond).2 h, entry]
    | related relation _ ih => rw [entry, ih hfirst hsecond, entry]

namespace Filter

/-- A canonical leaf and a negation are stated by different fields. -/
theorem entry_leaf_ne_not {condition : Condition} (h : ¬ condition.IsNegation) (item : Filter) :
    condition.entry ≠ ("_not", .object [item.entry]) := by
  intro heq
  obtain ⟨hkey, hvalue⟩ := Prod.mk.inj heq
  cases condition with
  | compared field comparison =>
    exact Comparison.fields_ne_entry item (Value.object.inj hvalue)
  | related relation inner => exact h hkey

/-- A leaf and a group are stated by different fields. -/
theorem entry_leaf_ne_list (condition : Condition) (key : String) (items : List Value) :
    condition.entry ≠ (key, .list items) := by
  intro h
  cases condition <;> cases (Prod.mk.inj h).2

mutual

/-- Canonical filters with the same field are alike. By recursion on the first filter. -/
theorem alike_of_entry_eq : ∀ {first second : Filter}, first.IsCanonical → second.IsCanonical →
    first.entry = second.entry → first.Alike second
  | .and items, second, hfirst, hsecond, h => by
    cases second with
    | and others =>
      exact .and (itemsAlike_of_itemObjects_eq hfirst hsecond (Value.list.inj (Prod.mk.inj h).2))
    | or others => exact absurd (Prod.mk.inj h).1 (by decide)
    | not item => cases (Prod.mk.inj h).2
    | leaf condition => exact absurd h.symm (entry_leaf_ne_list condition _ _)
  | .or items, second, hfirst, hsecond, h => by
    cases second with
    | and others => exact absurd (Prod.mk.inj h).1 (by decide)
    | or others =>
      exact .or (itemsAlike_of_itemObjects_eq hfirst hsecond (Value.list.inj (Prod.mk.inj h).2))
    | not item => cases (Prod.mk.inj h).2
    | leaf condition => exact absurd h.symm (entry_leaf_ne_list condition _ _)
  | .not item, second, hfirst, hsecond, h => by
    cases second with
    | and others => cases (Prod.mk.inj h).2
    | or others => cases (Prod.mk.inj h).2
    | not other =>
      have hentry := (List.cons.inj (Value.object.inj (Prod.mk.inj h).2)).1
      exact .not (alike_of_entry_eq hfirst hsecond hentry)
    | leaf condition => exact absurd h.symm (entry_leaf_ne_not hsecond.2 item)
  | .leaf condition, second, hfirst, hsecond, h => by
    cases second with
    | and others => exact absurd h (entry_leaf_ne_list condition _ _)
    | or others => exact absurd h (entry_leaf_ne_list condition _ _)
    | not other => exact absurd h (entry_leaf_ne_not hfirst.2 other)
    | leaf other => exact .leaf ((Condition.entry_eq_iff hfirst.1 hsecond.1).1 h)

theorem itemsAlike_of_itemObjects_eq : ∀ {first second : List Filter}, ItemsCanonical first →
    ItemsCanonical second → itemObjects first = itemObjects second → ItemsAlike first second
  | [], [], _, _, _ => .nil
  | [], _ :: _, _, _, h => by cases h
  | _ :: _, [], _, _, h => by cases h
  | item :: rest, other :: others, hfirst, hsecond, h => by
    obtain ⟨hitem, hrest⟩ := List.cons.inj h
    exact .cons (alike_of_entry_eq hfirst.1 hsecond.1 (List.cons.inj (Value.object.inj hitem)).1)
      (itemsAlike_of_itemObjects_eq hfirst.2 hsecond.2 hrest)

end

mutual

theorem entry_eq_of_alike : ∀ {first second : Filter}, first.IsCanonical → second.IsCanonical →
    first.Alike second → first.entry = second.entry
  | .and items, .and others, hfirst, hsecond, .and h => by
    have hitems : itemObjects items = itemObjects others :=
      itemObjects_eq_of_alike hfirst hsecond h
    rw [entry, hitems, entry]
  | .or items, .or others, hfirst, hsecond, .or h => by
    have hitems : itemObjects items = itemObjects others :=
      itemObjects_eq_of_alike hfirst hsecond h
    rw [entry, hitems, entry]
  | .not item, .not other, hfirst, hsecond, .not h => by
    have hitem : item.entry = other.entry := entry_eq_of_alike hfirst hsecond h
    rw [entry, hitem, entry]
  | .leaf _, .leaf _, hfirst, hsecond, .leaf h =>
    (Condition.entry_eq_iff hfirst.1 hsecond.1).2 h

theorem itemObjects_eq_of_alike : ∀ {first second : List Filter}, ItemsCanonical first →
    ItemsCanonical second → ItemsAlike first second → itemObjects first = itemObjects second
  | [], [], _, _, .nil => rfl
  | _ :: _, _ :: _, hfirst, hsecond, .cons h hrest => by
    rw [itemObjects, entry_eq_of_alike hfirst.1 hsecond.1 h,
      itemObjects_eq_of_alike hfirst.2 hsecond.2 hrest, itemObjects]

end

theorem entry_eq_iff {first second : Filter} (hfirst : first.IsCanonical)
    (hsecond : second.IsCanonical) : first.entry = second.entry ↔ first.Alike second :=
  ⟨alike_of_entry_eq hfirst hsecond, entry_eq_of_alike hfirst hsecond⟩

/-- Filters have the same text exactly if the same field states them. -/
theorem text_eq_iff_entry_eq {first second : Filter} :
    first.text = second.text ↔ first.entry = second.entry := by
  constructor
  · intro h
    have hvalue : first.value.text = second.value.text := by
      have htext : ∀ filter : Filter, filter.value.text = '{' :: filter.text ++ ['}'] :=
        fun filter ↦ rfl
      rw [htext, htext, h]
    have hwritable : ∀ filter : Filter, filter.value.IsWritable := fieldsWritable_entry
    have heq := Value.text_injective (hwritable first) (hwritable second) hvalue
    exact (List.cons.inj (Value.object.inj heq)).1
  · intro h
    rw [text, text, h]

/-- Two filters have the same text exactly if they are alike, up to numbers with the same text, once
presence is written as the denial of absence and a leaf through a relation `_not` as a negation. -/
theorem text_eq_iff (first second : Filter) :
    first.text = second.text ↔ first.canonical.Alike second.canonical := by
  rw [text_eq_iff_entry_eq, ← entry_canonical first, ← entry_canonical second]
  exact entry_eq_iff (isCanonical_canonical first) (isCanonical_canonical second)

end Filter

end AirInquiry
