import AirInquiry.Filter.Basic
import Mathlib.Tactic.Common

/-!
# Filters read back as they are written

Written as a JSON value, an operator, a condition and a filter read back as themselves
(`Operator.ofJson_toJson`, `Condition.ofJson_toJson`, `Filter.ofJson_toJson`). A condition is built
again while it is read, so its operand is put to the same test that it passed when the condition was
first built (`Comparison.make_operand`). A written group or negation has one entry, and a written
condition has no key of a group or a negation, so the first form that reads is the one that was
written.
-/

set_option autoImplicit false
set_option relaxedAutoImplicit false

namespace AirInquiry

/-- Assumes that every single value is read back from what is written for it. -/
theorem mapM_map_written {α β : Type} {m : Type → Type} [Monad m] [LawfulMonad m] {write : α → β}
    {read : β → m α} (h : ∀ value, read (write value) = pure value) (values : List α) :
    (values.map write).mapM read = pure values := by
  have hread : read ∘ write = fun value ↦ pure (id value) := funext h
  rw [List.mapM_map, hread, List.mapM_pure, List.map_id]

namespace Operator

theorem ofJson_toJson (operator : Operator) : ofJson operator.toJson = .ok operator := by
  cases operator with
  | scalar relation => cases relation <;> rfl
  | _ => rfl

end Operator

namespace Comparison

/-- An operand is never null. -/
theorem presentOperand_operand (comparison : Comparison) :
    presentOperand (some comparison.operand) = some comparison.operand := by
  cases comparison with
  | scalar relation operand => cases operand <;> rfl
  | _ => rfl

theorem itemsOf_toJson (items : List Scalar) :
    itemsOf (some (.array (items.map Scalar.toJson))) = .ok items := by
  have hitems : (items.map Scalar.toJson).mapM Scalar.ofJson? = some items :=
    mapM_map_written Scalar.ofJson?_toJson items
  rw [itemsOf, hitems]

/-- The operand of a comparison fits its operator. -/
theorem fit_operand (comparison : Comparison) :
    fit comparison.operator (some comparison.operand) = .ok comparison := by
  cases comparison with
  | scalar relation operand => simp [fit, operator, Comparison.operand]
  | oneOf items =>
    simp only [fit, operator, operand, itemsOf_toJson]
    rfl
  | noneOf items =>
    simp only [fit, operator, operand, itemsOf_toJson]
    rfl
  | between low high inOrder =>
    simp [fit, operator, operand, boundsOf, inOrder]
  | isNull holds => rfl
  | isNotNull holds => rfl

theorem make_operand (comparison : Comparison) :
    make comparison.operator (some comparison.operand) = .ok comparison := by
  rw [make, presentOperand_operand, fit_operand]
  rfl

end Comparison

namespace Condition

theorem nameFor_text (name : GraphQL.Name) : nameFor name.text = .ok name := by
  rw [nameFor, GraphQL.Name.ofString?_text]

theorem compare_operand (field : GraphQL.Name) (comparison : Comparison) :
    compare field.text comparison.operator (some comparison.operand) =
      .ok (.compared field comparison) := by
  rw [compare, nameFor_text, Comparison.make_operand]
  rfl

theorem through_text (relation : GraphQL.Name) (inner : Condition) :
    through relation.text inner = .ok (.related relation inner) := by
  rw [through, nameFor_text]
  rfl

theorem optional_operator (operator : Operator) :
    Json.Decode.optional Operator.ofJson operator.toJson = .ok (some operator) := by
  have hstring : Json.Decode.optional Operator.ofJson operator.toJson =
      (Operator.ofJson operator.toJson).map some := rfl
  rw [hstring, Operator.ofJson_toJson]
  rfl

/-- The parts of a written comparison. -/
theorem ofEntries_compared (field : GraphQL.Name) (comparison : Comparison) :
    ofEntries {} [("field", .string field.text), ("op", comparison.operator.toJson),
        ("value", comparison.operand)] =
      .ok ⟨some field.text, some comparison.operator, some comparison.operand, none⟩ := by
  simp only [ofEntries, Json.Decode.string, optional_operator, bind, Except.bind,
    Comparison.presentOperand_operand]

/-- The parts of a written condition on a related row. -/
theorem ofEntries_related (relation : GraphQL.Name) {inner : Condition}
    (h : ofJson inner.toJson = .ok inner) :
    ofEntries {} [("field", .string relation.text), ("nested", inner.toJson)] =
      .ok ⟨some relation.text, none, none, some inner⟩ := by
  have hnull : inner.toJson.isNull = false := by cases inner <;> rfl
  simp only [ofEntries, Json.Decode.string, bind, Except.bind, hnull, h, Bool.false_eq_true,
    if_false]
  rfl

/-- By induction on the relations that a condition passes through. -/
theorem ofJson_toJson (condition : Condition) : ofJson condition.toJson = .ok condition := by
  induction condition with
  | compared field comparison =>
    have hfinish := compare_operand field comparison
    rw [toJson, ofJson, ofEntries_compared]
    simp only [bind, Except.bind, Draft.finish, Option.getD_some, hfinish]
    rfl
  | related relation inner ih =>
    have hfinish := through_text relation inner
    rw [toJson, ofJson, ofEntries_related relation ih]
    simp only [bind, Except.bind, Draft.finish, Option.getD_some, hfinish]
    rfl

end Condition

namespace Filter

/-- A written condition has no key of a group or a negation. -/
theorem ofJson?_condition (condition : Condition) :
    ofJson? condition.toJson = (Condition.ofJson condition.toJson).toOption.map leaf := by
  cases condition <;> rfl

mutual

/-- By recursion on the filter. -/
theorem ofJson?_toJson : ∀ filter : Filter, ofJson? filter.toJson = some filter
  | .and items => by
    have hitems := allOf?_itemsToJson items
    simp [toJson, ofJson?, groupOf, itemsOf?, hitems, andKeys, Reading.before, Reading.value?]
  | .or items => by
    have hitems := allOf?_itemsToJson items
    simp [toJson, ofJson?, groupOf, itemsOf?, hitems, andKeys, orKeys, Reading.before,
      Reading.value?]
  | .not item => by
    have hitem := ofJson?_toJson item
    simp [toJson, ofJson?, groupOf, negatedOf, hitem, andKeys, orKeys, notKeys, Reading.before,
      Reading.value?]
  | .leaf condition => by
    rw [toJson, ofJson?_condition, Condition.ofJson_toJson]
    rfl

theorem allOf?_itemsToJson : ∀ items : List Filter, allOf? (itemsToJson items) = some items
  | [] => rfl
  | item :: rest => by
    rw [itemsToJson, allOf?, ofJson?_toJson item, allOf?_itemsToJson rest]

end

theorem ofJson_toJson (filter : Filter) : ofJson filter.toJson = .ok filter := by
  rw [ofJson, ofJson?_toJson]

end Filter

end AirInquiry
