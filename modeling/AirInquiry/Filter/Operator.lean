import AirInquiry.Json.Decode

/-!
# Comparison operators

The thirteen operators of a filter. A relation compares a field with one scalar; the others compare
it with a list, a pair of bounds or a truth value.
-/

set_option autoImplicit false
set_option relaxedAutoImplicit false

namespace AirInquiry

/-- A comparison of a field with one scalar. -/
inductive Relation where
  | equal
  | notEqual
  | greater
  | greaterOrEqual
  | less
  | lessOrEqual
  | like
  | likeIgnoringCase
  deriving DecidableEq, Repr

/-- A comparison operator. -/
inductive Operator where
  | scalar (relation : Relation)
  | oneOf
  | noneOf
  | between
  | isNull
  | isNotNull
  deriving DecidableEq, Repr

/-- The written form of a relation. -/
def Relation.text : Relation → String
  | .equal => "_eq"
  | .notEqual => "_neq"
  | .greater => "_gt"
  | .greaterOrEqual => "_gte"
  | .less => "_lt"
  | .lessOrEqual => "_lte"
  | .like => "_like"
  | .likeIgnoringCase => "_ilike"

namespace Operator

/-- All operators, in the order in which they are listed to others. -/
def all : List Operator :=
  [.scalar .equal, .scalar .notEqual, .scalar .greater, .scalar .greaterOrEqual,
    .scalar .less, .scalar .lessOrEqual, .oneOf, .noneOf, .between, .scalar .like,
    .scalar .likeIgnoringCase, .isNull, .isNotNull]

/-- The written form of an operator. -/
def text : Operator → String
  | .scalar relation => relation.text
  | .oneOf => "_in"
  | .noneOf => "_nin"
  | .between => "_between"
  | .isNull => "_is_null"
  | .isNotNull => "_is_not_null"

/-- Whether an operator asks for the absence or presence of a value. -/
def asksForNull : Operator → Bool
  | .isNull | .isNotNull => true
  | _ => false

/-- The further names under which an operator is understood. -/
def aliases : Operator → List String
  | .scalar .equal => ["eq"]
  | .scalar .notEqual => ["neq"]
  | .scalar .greater => ["gt"]
  | .scalar .greaterOrEqual => ["gte"]
  | .scalar .less => ["lt"]
  | .scalar .lessOrEqual => ["lte"]
  | .oneOf => ["in"]
  | .noneOf => ["nin", "not_in"]
  | .between => ["between"]
  | .scalar .like => ["like"]
  | .scalar .likeIgnoringCase => ["ilike"]
  | .isNull => ["is_null"]
  | .isNotNull => ["is_not_null", "not_null"]

/-- Every name of every operator. -/
def names : List (String × Operator) :=
  all.flatMap fun operator ↦ (operator.text :: operator.aliases).map fun name ↦ (name, operator)

/-- Reads an operator. -/
def ofJson : Json → Except Json.Mismatch Operator := Json.Decode.variant names

/-- An operator as a JSON value. -/
def toJson (operator : Operator) : Json := .string operator.text

end Operator

end AirInquiry
