import AirInquiry.Filter.Operator

/-!
# What is refused in a query's constraints

Each refusal names its cause; `Refusal.message` words it.
-/

set_option autoImplicit false
set_option relaxedAutoImplicit false

namespace AirInquiry

/-- Why an operand does not fit its operator. -/
inductive OperandFault where
  | notAPair (operand : Option Json)
  | boundsNotScalar
  | boundsReversed (low high : Binary64)
  | notAList (operand : Option Json)
  | itemsNotScalar
  | notABoolean (operand : Option Json)
  | notAScalar (operand : Option Json)

/-- Why a part of a query's constraints is refused. -/
inductive Refusal where
  | unfitOperand (operator : Operator) (fault : OperandFault)
  | notAName (name : String)
  | noOperator (field : String)
  | limitOutOfRange (value : Int)
  | offsetOutOfRange (value : Int)
  | malformedFilter (mismatch : Json.Mismatch)

/-- The wording of an operand. -/
def operandText : Option Json → String
  | none => "nothing"
  | some .null => "nothing"
  | some value => value.compact

/-- The wording of an operand's fault. -/
def OperandFault.message : OperandFault → String
  | .notAPair operand => "expected [low, high], got " ++ operandText operand
  | .boundsNotScalar => "bounds must be scalars"
  | .boundsReversed low high =>
    "low bound " ++ String.ofList low.proseText ++ " exceeds high bound " ++
      String.ofList high.proseText
  | .notAList operand => "expected a sequence, got " ++ operandText operand
  | .itemsNotScalar => "sequence items must be scalars"
  | .notABoolean operand => "expected a boolean or nothing, got " ++ operandText operand
  | .notAScalar operand => "expected a scalar or string, got " ++ operandText operand

/-- The wording of a refusal. -/
def Refusal.message : Refusal → String
  | .unfitOperand operator fault =>
    "invalid argument for " ++ operator.text ++ ": " ++ fault.message
  | .notAName name => "invalid field name: " ++ Text.quoted name
  | .noOperator field =>
    "condition on " ++ Json.ticked field ++ " needs an operator or a nested condition"
  | .limitOutOfRange value => "limit must be positive, got " ++ toString value
  | .offsetOutOfRange value => "offset must be non-negative, got " ++ toString value
  | .malformedFilter mismatch => "malformed constraint: where: " ++ mismatch.message

/-- A refusal met while a value is read. -/
def Refusal.asMismatch (error : Refusal) : Json.Mismatch := .refused error.message

end AirInquiry
