import AirInquiry.Filter.Basic
import Mathlib.Tactic.Common

/-!
# Rows that pass a filter

What a condition asks of a row is for the data service to judge. A `Judgement` leaves it open but
for equality and membership: a row meets these exactly if the value in the field is the operand, or
one of the operands. Values are compared like those of JSON, where the two zeros are equal and a
whole number is no decimal one (`Scalar.equals`).

Groups of conditions mean what they say (`Filter.Passes`).
-/

set_option autoImplicit false
set_option relaxedAutoImplicit false

namespace AirInquiry

/-! ### Equal values -/

namespace Json.Number

theorem equals_comm (a b : Number) : a.equals b = b.equals a := by
  cases a <;> cases b <;> simp only [equals, Binary64.equals, eq_comm]

theorem equals_trans {a b c : Number} (hab : a.equals b = true) (hbc : b.equals c = true) :
    a.equals c = true := by
  cases a <;> cases b <;> cases c <;>
    simp only [equals, Binary64.equals, decide_eq_true_eq, reduceCtorEq] at *
  · exact hab.trans hbc
  · exact hab.trans hbc

end Json.Number

namespace Scalar

/-- Whether two scalars are equal. -/
def equals : Scalar → Scalar → Bool
  | .bool a, .bool b => a = b
  | .number a, .number b => a.equals b
  | .string a, .string b => a = b
  | _, _ => false

theorem equals_comm (a b : Scalar) : a.equals b = b.equals a := by
  cases a <;> cases b <;> simp only [equals, eq_comm, Json.Number.equals_comm]

theorem equals_trans {a b c : Scalar} (hab : a.equals b = true) (hbc : b.equals c = true) :
    a.equals c = true := by
  cases a <;> cases b <;> cases c <;> simp only [equals, decide_eq_true_eq, reduceCtorEq] at *
  · exact hab.trans hbc
  · exact Json.Number.equals_trans hab hbc
  · exact hab.trans hbc

end Scalar

/-- Whether a value is a scalar that equals a given one. -/
def Json.isEqualTo (value : Json) (operand : Scalar) : Bool :=
  (Scalar.ofJson? value).any (·.equals operand)

theorem Json.isEqualTo_of_equals {value : Json} {first second : Scalar}
    (h : first.equals second = true) (hsecond : value.isEqualTo second = true) :
    value.isEqualTo first = true := by
  obtain ⟨scalar, hscalar, hequals⟩ := (Option.any_eq_true _ _).1 hsecond
  refine (Option.any_eq_true _ _).2 ⟨scalar, hscalar, Scalar.equals_trans hequals ?_⟩
  rw [Scalar.equals_comm]
  exact h

/-! ### Judging rows -/

/-- How a data service judges rows of some kind: what a row holds in a field, where nothing counts
as null, and which conditions it meets. -/
structure Judgement (Row : Type) where
  value : Row → String → Json
  Meets : Row → Condition → Prop
  meets_equal : ∀ row field operand, Meets row (.compared field (.scalar .equal operand)) ↔
    (value row field.text).isEqualTo operand = true
  meets_oneOf : ∀ row field operands, Meets row (.compared field (.oneOf operands)) ↔
    ∃ operand ∈ operands, (value row field.text).isEqualTo operand = true

namespace Filter

variable {Row : Type}

mutual

/-- The row passes the filter. -/
def Passes (judgement : Judgement Row) (row : Row) : Filter → Prop
  | .and items => PassesAll judgement row items
  | .or items => PassesSome judgement row items
  | .not item => ¬ Passes judgement row item
  | .leaf condition => judgement.Meets row condition
termination_by structural filter => filter

/-- The row passes every item. -/
def PassesAll (judgement : Judgement Row) (row : Row) : List Filter → Prop
  | [] => True
  | item :: rest => Passes judgement row item ∧ PassesAll judgement row rest
termination_by structural items => items

/-- The row passes some item. -/
def PassesSome (judgement : Judgement Row) (row : Row) : List Filter → Prop
  | [] => False
  | item :: rest => Passes judgement row item ∨ PassesSome judgement row rest
termination_by structural items => items

end

variable {judgement : Judgement Row} {row : Row}

theorem passesAll_iff {items : List Filter} :
    PassesAll judgement row items ↔ ∀ item ∈ items, item.Passes judgement row := by
  induction items with
  | nil => simp [PassesAll]
  | cons item rest ih => rw [PassesAll, ih, List.forall_mem_cons]

end Filter

end AirInquiry
