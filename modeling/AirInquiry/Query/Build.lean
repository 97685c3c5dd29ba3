import AirInquiry.Constraints.Basic
import AirInquiry.Selection.Tree

/-!
# From a selection and constraints to a query

Filters become objects of one entry: a group is a list of such objects, a negation or a relation an
object around one. The query language has no operator for a range and none for presence, so a range
becomes two comparisons, and presence the denial of absence. A sort key becomes an object around
an object for every name of its path. Without any selected field the identifier is asked for.
-/

set_option autoImplicit false
set_option relaxedAutoImplicit false

namespace AirInquiry

open GraphQL (Value)

/-- The fields of the object that states a comparison. -/
def Comparison.fields : Comparison → List (String × Value)
  | .between low high _ =>
    [(Relation.greaterOrEqual.text, Value.ofJson low.toJson),
      (Relation.lessOrEqual.text, Value.ofJson high.toJson)]
  | .isNotNull holds => [(Operator.isNull.text, .boolean !holds)]
  | comparison => [(comparison.operator.text, Value.ofJson comparison.operand)]

/-- The field that states a condition. -/
def Condition.entry : Condition → String × Value
  | .compared field comparison => (field.text, .object comparison.fields)
  | .related relation inner => (relation.text, .object [inner.entry])

namespace Filter

mutual

/-- The field that states a filter. -/
def entry : Filter → String × Value
  | .and items => ("_and", .list (itemObjects items))
  | .or items => ("_or", .list (itemObjects items))
  | .not item => ("_not", .object [entry item])
  | .leaf condition => condition.entry
termination_by structural filter => filter

/-- The objects that state the items of a group. -/
def itemObjects : List Filter → List Value
  | [] => []
  | item :: rest => .object [entry item] :: itemObjects rest
termination_by structural items => items

end

/-- The object that states a filter. -/
def value (filter : Filter) : Value := .object [filter.entry]

/-- The text of the field that states a filter. -/
def text (filter : Filter) : List Char := Text.joinChars Value.separator
  (Value.fieldTexts [filter.entry])

end Filter

namespace SortKey

/-- The word for direction and place of missing values. -/
def word (item : SortKey) : String :=
  match item.nulls with
  | none => item.direction.text
  | some position => item.direction.text ++ "_nulls_" ++ position.text

/-- The object that states a sort key. -/
def value (item : SortKey) : Value :=
  item.path.foldr (fun name inner ↦ .object [(name.text, inner)]) (.word item.word)

end SortKey

namespace Constraints

/-- The argument under a name, if there is a value for it. -/
def argument {α : Type} (name : String) (toValue : α → Value) : Option α → List (String × Value)
  | none => []
  | some value => [(name, toValue value)]

/-- A count as a constant. -/
def countValue (count : UInt32) : Value := .number (toString count.toNat)

/-- The arguments that state constraints. -/
def arguments (constraints : Constraints) : List (String × Value) :=
  argument "where" Filter.value constraints.filter ++
    argument "order_by" (fun items : List SortKey ↦ .list (items.map SortKey.value))
      constraints.presentSortKeys? ++
    argument "limit" countValue constraints.limit ++
    argument "offset" countValue constraints.offset

end Constraints

namespace Query

/-- The identifier as a name. -/
def identifier : GraphQL.Name := ⟨identifierName, by decide⟩

/-- The selection of a list of paths, or the identifier if it selects nothing. -/
def selectionOf (fields : List FieldChoice) : List GraphQL.Selection :=
  let tree := PathTree.ofSelection fields
  if tree.isEmpty then [.field identifier []] else tree.selection

/-- The query for the selected fields of a table under constraints. -/
def build (table : String) (fields : List FieldChoice) (constraints : Option Constraints) :
    GraphQL.Query where
  root := table
  arguments := (constraints.map Constraints.arguments).getD []
  selection := selectionOf fields

end Query

end AirInquiry
