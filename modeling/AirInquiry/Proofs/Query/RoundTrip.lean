import AirInquiry.Proofs.GraphQL.RoundTrip
import AirInquiry.Query.Build

/-!
# What a built query says

The query for a table, a selection and constraints reads back as exactly what was asked for
(`Query.definitionsOf?_build`). What a filter, a sort key and constraints say is defined here as
values of the grammar (`Filter.tree`, `SortKey.tree`, `Constraints.argumentTrees`), without the
constants that a query is built from, and a string stands for itself, character for character.

Built queries meet the conditions under which a query reads back: their arguments are writable,
because fields are names and operands are JSON values (`Constraints.fieldsWritable_arguments`), and
they select the identifier when nothing else is selected (`Query.selectionOf_ne_nil`).
-/

set_option autoImplicit false
set_option relaxedAutoImplicit false

namespace AirInquiry

open GraphQL (Value isName)

/-! ### What constraints say -/

/-- A scalar as a value. An integer is written in decimal digits, and a floating point number in the
layout of data. -/
def Scalar.tree : Scalar → GraphQL.Grammar.Value
  | .bool value => .boolean value
  | .number (.integer value) => .integer (toString value)
  | .number (.float value) => .float (String.ofList value.dataText)
  | .string text => .string text

/-- What a comparison says: a range gives its two bounds, the presence of a value denies its
absence, and every other operator stands with its operand. -/
def Comparison.trees : Comparison → List (String × GraphQL.Grammar.Value)
  | .scalar relation operand => [(relation.text, operand.tree)]
  | .oneOf items => [("_in", .list (items.map Scalar.tree))]
  | .noneOf items => [("_nin", .list (items.map Scalar.tree))]
  | .between low high _ => [("_gte", low.tree), ("_lte", high.tree)]
  | .isNull holds => [("_is_null", .boolean holds)]
  | .isNotNull holds => [("_is_null", .boolean !holds)]

/-- What a condition says: a comparison of a field, or a condition inside a relation. -/
def Condition.tree : Condition → String × GraphQL.Grammar.Value
  | .compared field comparison => (field.text, .object comparison.trees)
  | .related relation inner => (relation.text, .object [inner.tree])

namespace Filter

mutual

/-- What a filter says: a group is a list of objects with one field each, and a negation is an
object with one field. -/
def tree : Filter → String × GraphQL.Grammar.Value
  | .and items => ("_and", .list (itemTrees items))
  | .or items => ("_or", .list (itemTrees items))
  | .not item => ("_not", .object [tree item])
  | .leaf condition => condition.tree
termination_by structural filter => filter

/-- What the items of a group say. -/
def itemTrees : List Filter → List GraphQL.Grammar.Value
  | [] => []
  | item :: rest => .object [tree item] :: itemTrees rest
termination_by structural items => items

end

end Filter

namespace SortKey

/-- The word for a direction and the place of missing values. -/
def directionWord : Direction → Option NullPlace → String
  | .ascending, none => "asc"
  | .ascending, some .first => "asc_nulls_first"
  | .ascending, some .last => "asc_nulls_last"
  | .descending, none => "desc"
  | .descending, some .first => "desc_nulls_first"
  | .descending, some .last => "desc_nulls_last"

/-- What a sort key says: objects with one key each along the path, and the word at its end. -/
def tree (item : SortKey) : GraphQL.Grammar.Value :=
  item.path.foldr (fun name inner ↦ .object [(name.text, inner)])
    (.enumeration (directionWord item.direction item.nulls))

end SortKey

/-- The arguments that constraints ask for, each of them only if there is something to ask. -/
def Constraints.argumentTrees (constraints : Constraints) :
    List (String × GraphQL.Grammar.Value) :=
  (constraints.filter.map fun filter ↦
      ("where", GraphQL.Grammar.Value.object [filter.tree])).toList ++
    (if constraints.sortKeys = [] then []
      else [("order_by", .list (constraints.sortKeys.map SortKey.tree))]) ++
    (constraints.limit.map fun count ↦
      ("limit", GraphQL.Grammar.Value.integer (toString count.toNat))).toList ++
    (constraints.offset.map fun count ↦
      ("offset", GraphQL.Grammar.Value.integer (toString count.toNat))).toList

/-! ### The constants of a query say the same -/

theorem toString_eq_text (value : Int) :
    toString value = String.ofList (Json.Number.integer value).text := by
  rw [Int.toString_eq_repr, Int.repr_eq_if]
  simp only [Json.Number.text]
  by_cases hnegative : value < 0
  · have habs : (-value).toNat = value.natAbs := by omega
    have hminus : "-" = String.ofList ['-'] := by rfl
    rw [if_neg (by omega), if_pos hnegative, habs, Nat.repr, hminus, ← String.ofList_append]
    rfl
  · have habs : value.toNat = value.natAbs := by omega
    rw [if_pos (by omega), if_neg hnegative, habs, Nat.repr]

theorem Scalar.tree_ofJson_toJson (scalar : Scalar) :
    (Value.ofJson scalar.toJson).tree = scalar.tree := by
  cases scalar with
  | bool value => rfl
  | string text => rfl
  | number value =>
    cases value with
    | integer value =>
      rw [Scalar.tree, toString_eq_text]
      exact Value.numberTree_of_isInteger (GraphQL.isInteger_text value)
    | float value =>
      obtain ⟨whole, fraction, exponent, hfloat⟩ := GraphQL.isFloat_dataText value
      exact Value.numberTree_of_isFloat hfloat

theorem Scalar.itemTrees_ofJson_toJson (items : List Scalar) :
    Value.itemTrees (Value.itemsOfJson (items.map Scalar.toJson)) = items.map Scalar.tree := by
  induction items with
  | nil => rfl
  | cons first rest ih =>
    simp only [List.map_cons, Value.itemsOfJson, Value.itemTrees, ih, Scalar.tree_ofJson_toJson]

theorem Comparison.fieldTrees_fields (comparison : Comparison) :
    Value.fieldTrees comparison.fields = comparison.trees := by
  cases comparison with
  | scalar relation operand =>
    simp [fields, operator, Operator.text, Comparison.operand, Value.fieldTrees, trees,
      Scalar.tree_ofJson_toJson]
  | oneOf items =>
    simp [fields, operator, Operator.text, operand, Value.fieldTrees, Value.ofJson, Value.tree,
      trees, Scalar.itemTrees_ofJson_toJson]
  | noneOf items =>
    simp [fields, operator, Operator.text, operand, Value.fieldTrees, Value.ofJson, Value.tree,
      trees, Scalar.itemTrees_ofJson_toJson]
  | between low high _ =>
    simp [fields, Relation.text, Value.fieldTrees, trees, Scalar.tree_ofJson_toJson]
  | isNull holds => rfl
  | isNotNull holds => rfl

theorem Condition.tree_entry (condition : Condition) :
    (condition.entry.1, condition.entry.2.tree) = condition.tree := by
  induction condition with
  | compared field comparison =>
    rw [entry, Value.tree, comparison.fieldTrees_fields, tree]
  | related relation inner ih =>
    rw [entry, Value.tree, Value.fieldTrees, ih, Value.fieldTrees, tree]

namespace Filter

mutual

theorem tree_entry : ∀ filter : Filter, (filter.entry.1, filter.entry.2.tree) = filter.tree
  | .and items => by rw [entry, Value.tree, itemTrees_itemObjects items, tree]
  | .or items => by rw [entry, Value.tree, itemTrees_itemObjects items, tree]
  | .not item => by
    rw [entry, Value.tree, Value.fieldTrees, tree_entry item, Value.fieldTrees, tree]
  | .leaf condition => condition.tree_entry

theorem itemTrees_itemObjects : ∀ items : List Filter,
    Value.itemTrees (itemObjects items) = itemTrees items
  | [] => rfl
  | item :: rest => by
    rw [itemObjects, Value.itemTrees, Value.tree, Value.fieldTrees, tree_entry item,
      itemTrees_itemObjects rest, Value.fieldTrees, itemTrees]

end

theorem tree_value (filter : Filter) : filter.value.tree = .object [filter.tree] := by
  rw [value, Value.tree, Value.fieldTrees, tree_entry, Value.fieldTrees]

end Filter

namespace SortKey

theorem word_eq (item : SortKey) : item.word = directionWord item.direction item.nulls := by
  obtain ⟨head, tail, direction, nulls⟩ := item
  rcases direction with _ | _ <;> rcases nulls with _ | _ | _ <;> rfl

theorem tree_foldr (path : List GraphQL.Name) (word : String) :
    (path.foldr (fun name inner ↦ Value.object [(name.text, inner)]) (.word word)).tree =
      path.foldr (fun name inner ↦ .object [(name.text, inner)]) (.enumeration word) := by
  induction path with
  | nil => rfl
  | cons name rest ih => simp [Value.tree, Value.fieldTrees, ih]

theorem tree_value (item : SortKey) : item.value.tree = item.tree := by
  rw [value, tree, tree_foldr, word_eq]

theorem itemTrees_values (items : List SortKey) :
    Value.itemTrees (items.map SortKey.value) = items.map SortKey.tree := by
  induction items with
  | nil => rfl
  | cons first rest ih => simp [Value.itemTrees, tree_value, ih]

end SortKey

namespace Constraints

theorem fieldTrees_append (first second : List (String × Value)) :
    Value.fieldTrees (first ++ second) = Value.fieldTrees first ++ Value.fieldTrees second := by
  induction first with
  | nil => rfl
  | cons field rest ih => simp [Value.fieldTrees, ih]

theorem fieldTrees_argument {α : Type} (name : String) (toValue : α → Value)
    (toTree : α → GraphQL.Grammar.Value) (h : ∀ value, (toValue value).tree = toTree value)
    (value : Option α) :
    Value.fieldTrees (argument name toValue value) =
      (value.map fun value ↦ (name, toTree value)).toList := by
  cases value with
  | none => rfl
  | some value => simp [argument, Value.fieldTrees, h]

theorem tree_countValue (count : UInt32) :
    (countValue count).tree = .integer (toString count.toNat) := by
  have hdigits := GraphQL.isInteger_toString count.toNat
  rw [countValue, Value.tree, Value.numberTree, Value.isIntegerText_of_isInteger hdigits,
    if_pos rfl]

theorem fieldTrees_arguments (constraints : Constraints) :
    Value.fieldTrees constraints.arguments = constraints.argumentTrees := by
  have hsortKeys : ((constraints.presentSortKeys?.map fun items ↦
      ("order_by", GraphQL.Grammar.Value.list (items.map SortKey.tree))).toList) =
      if constraints.sortKeys = [] then []
      else [("order_by", .list (constraints.sortKeys.map SortKey.tree))] := by
    unfold presentSortKeys?
    cases constraints.sortKeys <;> rfl
  rw [arguments, argumentTrees, fieldTrees_append, fieldTrees_append, fieldTrees_append,
    fieldTrees_argument "where" _ _ Filter.tree_value,
    fieldTrees_argument "order_by" _ (fun items ↦ .list (items.map SortKey.tree))
      (fun items ↦ by rw [Value.tree, SortKey.itemTrees_values]),
    fieldTrees_argument "limit" _ _ tree_countValue,
    fieldTrees_argument "offset" _ _ tree_countValue, hsortKeys]

end Constraints

/-! ### Built queries are writable -/

theorem Relation.isName_text (relation : Relation) : isName relation.text = true := by
  cases relation <;> decide

theorem Operator.isName_text (operator : Operator) : isName operator.text = true := by
  cases operator with
  | scalar relation => exact relation.isName_text
  | _ => decide

theorem Comparison.fieldsWritable_fields (comparison : Comparison) :
    Value.FieldsWritable comparison.fields := by
  have hsingle : ∀ (operator : Operator) (value : Value), value.IsWritable →
      Value.FieldsWritable [(operator.text, value)] := fun operator value hvalue ↦
    ⟨operator.isName_text, hvalue, trivial⟩
  cases comparison with
  | between low high _ =>
    exact ⟨Relation.isName_text _, Value.isWritable_ofJson _, Relation.isName_text _,
      Value.isWritable_ofJson _, trivial⟩
  | isNotNull holds => exact hsingle .isNull _ trivial
  | _ => exact hsingle _ _ (Value.isWritable_ofJson _)

theorem Condition.fieldsWritable_entry (condition : Condition) :
    Value.FieldsWritable [condition.entry] := by
  induction condition with
  | compared field comparison => exact ⟨field.isName, comparison.fieldsWritable_fields, trivial⟩
  | related relation inner ih => exact ⟨relation.isName, ih, trivial⟩

namespace Filter

mutual

theorem fieldsWritable_entry : ∀ filter : Filter, Value.FieldsWritable [filter.entry]
  | .and items => ⟨by decide, itemsWritable_itemObjects items, trivial⟩
  | .or items => ⟨by decide, itemsWritable_itemObjects items, trivial⟩
  | .not item => ⟨by decide, fieldsWritable_entry item, trivial⟩
  | .leaf condition => condition.fieldsWritable_entry

theorem itemsWritable_itemObjects : ∀ items : List Filter, Value.ItemsWritable (itemObjects items)
  | [] => trivial
  | item :: rest => ⟨fieldsWritable_entry item, itemsWritable_itemObjects rest⟩

end

end Filter

theorem SortKey.isWritable_value (item : SortKey) : item.value.IsWritable := by
  have hwords : ∀ direction nulls, isName (directionWord direction nulls) = true ∧
      directionWord direction nulls ∉ ["true", "false", "null"] := by
    rintro (_ | _) (_ | _ | _) <;> decide
  have hword : (Value.word item.word).IsWritable := by
    rw [word_eq]
    exact hwords item.direction item.nulls
  unfold SortKey.value
  induction item.path with
  | nil => exact hword
  | cons name rest ih => exact ⟨name.isName, ih, trivial⟩

namespace Constraints

theorem fieldsWritable_append {first second : List (String × Value)}
    (hfirst : Value.FieldsWritable first) (hsecond : Value.FieldsWritable second) :
    Value.FieldsWritable (first ++ second) := by
  induction first with
  | nil => exact hsecond
  | cons field rest ih => exact ⟨hfirst.1, hfirst.2.1, ih hfirst.2.2⟩

theorem fieldsWritable_argument {α : Type} {name : String} {toValue : α → Value}
    (hname : isName name = true) (h : ∀ value, (toValue value).IsWritable) (value : Option α) :
    Value.FieldsWritable (argument name toValue value) := by
  cases value with
  | none => trivial
  | some value => exact ⟨hname, h value, trivial⟩

theorem isWritable_countValue (count : UInt32) : (countValue count).IsWritable :=
  .inl (GraphQL.isInteger_toString count.toNat)

theorem isWritable_sortKeys (items : List SortKey) :
    (Value.list (items.map SortKey.value)).IsWritable := by
  induction items with
  | nil => trivial
  | cons first rest ih => exact ⟨first.isWritable_value, ih⟩

theorem fieldsWritable_arguments (constraints : Constraints) :
    Value.FieldsWritable constraints.arguments :=
  fieldsWritable_append
    (fieldsWritable_append
      (fieldsWritable_append
        (fieldsWritable_argument (by decide) (fun filter ↦ filter.fieldsWritable_entry) _)
        (fieldsWritable_argument (by decide) isWritable_sortKeys _))
      (fieldsWritable_argument (by decide) isWritable_countValue _))
    (fieldsWritable_argument (by decide) isWritable_countValue _)

end Constraints

namespace Query

theorem fieldsWritable_build (table : String) (fields : List FieldChoice)
    (constraints : Option Constraints) :
    Value.FieldsWritable (build table fields constraints).arguments := by
  cases constraints with
  | none => trivial
  | some constraints => exact constraints.fieldsWritable_arguments

theorem selection_ne_nil {tree : PathTree} (h : tree.isEmpty = false) : tree.selection ≠ [] := by
  obtain ⟨children⟩ := tree
  cases children with
  | nil => cases h
  | cons child rest =>
    obtain ⟨name, inside⟩ := child
    cases hinside : inside.isEmpty with
    | true => simp [PathTree.selection, PathTree.leaves, hinside]
    | false => simp [PathTree.selection, PathTree.inner, hinside]

theorem selectionOf_ne_nil (fields : List FieldChoice) : selectionOf fields ≠ [] := by
  simp only [selectionOf]
  split
  · simp
  · next htree => exact selection_ne_nil (by simpa using htree)

theorem fieldTrees_build (table : String) (fields : List FieldChoice)
    (constraints : Option Constraints) :
    Value.fieldTrees (build table fields constraints).arguments =
      (constraints.map Constraints.argumentTrees).getD [] := by
  cases constraints with
  | none => rfl
  | some constraints => exact constraints.fieldTrees_arguments

/-- Assumes that the table is a name. -/
theorem definitionsOf?_build (table : String) (fields : List FieldChoice)
    (constraints : Option Constraints) (htable : isName table = true) :
    GraphQL.Grammar.definitionsOf? (build table fields constraints).text =
      some [.operation .query none [] [] [.field none table
        ((constraints.map Constraints.argumentTrees).getD []) []
        (GraphQL.Selection.trees (selectionOf fields))]] := by
  rw [GraphQL.Query.definitionsOf?_text htable (fieldsWritable_build table fields constraints)
    (selectionOf_ne_nil fields), GraphQL.Query.tree, fieldTrees_build]
  rfl

/-- Stations outside a city whose name ends in a quotation mark and a brace, last city first. -/
theorem definitionsOf?_build_stations :
    isName "stations" = true ∧
      GraphQL.Grammar.definitionsOf? (build "stations"
        [⟨"city.name", true, none⟩, ⟨"1st", true, none⟩, ⟨"name", true, none⟩]
        (some {
          filter := some (.not (.leaf (.related ⟨"city", by decide⟩
            (.compared ⟨"name", by decide⟩ (.scalar .equal (.string "a\"\x7d"))))))
          sortKeys := [⟨⟨"city", by decide⟩, [⟨"name", by decide⟩], .descending, some .last⟩]
          limit := none
          offset := some 3
          filter_isPruned := by
            intro kept hkept
            cases hkept
            simp [Filter.IsPruned]
          limit_pos := by
            intro count hcount
            cases hcount })).text =
        some [.operation .query none [] [] [.field none "stations"
          [("where", .object [("_not", .object [("city", .object [("name",
              .object [("_eq", .string "a\"\x7d")])])])]),
            ("order_by", .list [.object [("city",
              .object [("name", .enumeration "desc_nulls_last")])]]),
            ("offset", .integer "3")] []
          [.field none "name" [] [] [],
            .field none "city" [] [] [.field none "name" [] [] []]]]] := by
  have htable : isName "stations" = true := by decide
  refine ⟨htable, (definitionsOf?_build "stations" _ _ htable).trans ?_⟩
  have hcity : PathTree.namesOf "city.name" =
      some [⟨"city", by decide⟩, ⟨"name", by decide⟩] := by rfl
  have hdigit : PathTree.namesOf "1st" = none := by rfl
  have hname : PathTree.namesOf "name" = some [⟨"name", by decide⟩] := by rfl
  have hselection : GraphQL.Selection.trees (selectionOf
      [⟨"city.name", true, none⟩, ⟨"1st", true, none⟩, ⟨"name", true, none⟩]) =
      [.field none "name" [] [] [], .field none "city" [] [] [.field none "name" [] [] []]] := by
    simp [selectionOf, PathTree.ofSelection, hcity, hdigit, hname, PathTree.insert,
      PathTree.alterChild, PathTree.empty, PathTree.isEmpty, PathTree.selection, PathTree.leaves,
      PathTree.inner, GraphQL.Selection.trees, GraphQL.Selection.tree]
  rw [hselection]
  rfl

end Query

end AirInquiry
