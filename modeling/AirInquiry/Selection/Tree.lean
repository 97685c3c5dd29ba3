import AirInquiry.GraphQL.Document
import AirInquiry.Selection.Basic
import AirInquiry.Text.Blank

/-!
# The tree of selected fields

The selected paths of a list, without their indices, are put together into a tree whose children
stand in the order in which they were first mentioned. A path with a part that is no name is left
out as a whole. In the query the fields without inner fields come first at every level.
-/

set_option autoImplicit false
set_option relaxedAutoImplicit false

namespace AirInquiry

/-- Fields with the fields selected inside them. -/
inductive PathTree where
  | node (children : List (GraphQL.Name × PathTree))

namespace PathTree

/-- The tree without fields. -/
def empty : PathTree := .node []

/-- The fields of a tree. -/
def children : PathTree → List (GraphQL.Name × PathTree)
  | .node children => children

/-- Whether a tree has no fields. -/
def isEmpty : PathTree → Bool
  | .node children => children.isEmpty

/-- Changes the child of a name, which is added at the end if it is new. -/
def alterChild (name : GraphQL.Name) (change : PathTree → PathTree) :
    List (GraphQL.Name × PathTree) → List (GraphQL.Name × PathTree)
  | [] => [(name, change empty)]
  | (other, child) :: rest =>
    if other = name then (other, change child) :: rest
    else (other, child) :: alterChild name change rest

/-- Adds a path to a tree. -/
def insert : List GraphQL.Name → PathTree → PathTree
  | [], tree => tree
  | name :: rest, .node children => .node (alterChild name (insert rest) children)

/-- The names along a path, if all of its parts are names. Blanks around a part and the index at its
end do not count. -/
def namesOf (path : String) : Option (List GraphQL.Name) :=
  (FieldChoice.parts path).mapM fun part ↦
    GraphQL.Name.ofString? (String.ofList (FieldChoice.nameAndIndex (Text.trimChars part)).1)

/-- The tree of the selected paths. -/
def ofSelection (fields : List FieldChoice) : PathTree :=
  ((fields.filter (·.selected)).filterMap fun field ↦ namesOf field.path).foldl
    (fun tree path ↦ insert path tree) empty

/-- The fields without inner fields. -/
def leaves (children : List (GraphQL.Name × PathTree)) : List GraphQL.Selection :=
  (children.filter (·.2.isEmpty)).map fun child ↦ .field child.1 []

mutual

/-- The selection of a tree: first the fields without inner fields, then the others. -/
def selection : PathTree → List GraphQL.Selection
  | .node children => leaves children ++ inner children
termination_by structural tree => tree

/-- The fields with inner fields. -/
def inner : List (GraphQL.Name × PathTree) → List GraphQL.Selection
  | [] => []
  | (name, tree) :: rest =>
    if tree.isEmpty then inner rest else .field name (selection tree) :: inner rest
termination_by structural children => children

end

end PathTree

end AirInquiry
