import AirInquiry.Filter.Error

/-!
# Comparisons

A comparison is an operator together with an operand that fits it, so no comparison can hold a list
where one value is meant or bounds in the wrong order. `Comparison.make` builds one from an operator
and any JSON value or none, or says why the value does not fit.
-/

set_option autoImplicit false
set_option relaxedAutoImplicit false

namespace AirInquiry

/-- A JSON value that is neither null nor composed of others. -/
inductive Scalar where
  | bool (value : Bool)
  | number (value : Json.Number)
  | string (text : String)
  deriving DecidableEq, Repr

namespace Scalar

/-- A scalar as a JSON value. -/
def toJson : Scalar → Json
  | .bool value => .bool value
  | .number value => .number value
  | .string text => .string text

/-- The scalar that a JSON value is. -/
def ofJson? : Json → Option Scalar
  | .bool value => some (.bool value)
  | .number value => some (.number value)
  | .string text => some (.string text)
  | _ => none

@[simp] theorem ofJson?_toJson (scalar : Scalar) : ofJson? scalar.toJson = some scalar := by
  cases scalar <;> rfl

/-- The number that a scalar is. -/
def asNumber? : Scalar → Option Json.Number
  | .number value => some value
  | _ => none

/-- Whether two bounds are both numbers of which the first is, as a floating point number, greater
than the second. -/
def reversed (low high : Scalar) : Bool :=
  match low.asNumber?, high.asNumber? with
  | some low, some high => high.toBinary64.less low.toBinary64
  | _, _ => false

end Scalar

/-- An operator with an operand that fits it. -/
inductive Comparison where
  | scalar (relation : Relation) (operand : Scalar)
  | oneOf (items : List Scalar)
  | noneOf (items : List Scalar)
  | between (low high : Scalar) (inOrder : Scalar.reversed low high = false)
  | isNull (holds : Bool)
  | isNotNull (holds : Bool)
  deriving DecidableEq

namespace Comparison

/-- The operator of a comparison. -/
def operator : Comparison → Operator
  | .scalar relation _ => .scalar relation
  | .oneOf _ => .oneOf
  | .noneOf _ => .noneOf
  | .between _ _ _ => .between
  | .isNull _ => .isNull
  | .isNotNull _ => .isNotNull

/-- The operand of a comparison. -/
def operand : Comparison → Json
  | .scalar _ operand => operand.toJson
  | .oneOf items => .array (items.map Scalar.toJson)
  | .noneOf items => .array (items.map Scalar.toJson)
  | .between low high _ => .array [low.toJson, high.toJson]
  | .isNull holds => .bool holds
  | .isNotNull holds => .bool holds

/-- Null counts as no operand. -/
def presentOperand : Option Json → Option Json
  | some .null => none
  | operand => operand

/-- The scalars of an operand that has to be a list of them. -/
def itemsOf (operand : Option Json) : Except OperandFault (List Scalar) :=
  match operand with
  | some (.array items) =>
    match items.mapM Scalar.ofJson? with
    | some items => .ok items
    | none => .error .itemsNotScalar
  | other => .error (.notAList other)

/-- The truth value of an operand that may be left out. -/
def truthOf (operand : Option Json) : Except OperandFault Bool :=
  match operand with
  | none => .ok true
  | some (.bool value) => .ok value
  | other => .error (.notABoolean other)

/-- The comparison with the bounds that an operand holds. -/
def boundsOf (operand : Option Json) : Except OperandFault Comparison :=
  match operand with
  | some (.array [low, high]) =>
    match Scalar.ofJson? low, Scalar.ofJson? high with
    | some low, some high =>
      if h : Scalar.reversed low high = false then .ok (.between low high h)
      else
        match low.asNumber?, high.asNumber? with
        | some low, some high => .error (.boundsReversed low.toBinary64 high.toBinary64)
        | _, _ => .error .boundsNotScalar
    | _, _ => .error .boundsNotScalar
  | other => .error (.notAPair other)

/-- The comparison of an operator with an operand, unless the operand does not fit. -/
def fit (operator : Operator) (operand : Option Json) : Except OperandFault Comparison :=
  match operator with
  | .between => boundsOf operand
  | .oneOf => (itemsOf operand).map .oneOf
  | .noneOf => (itemsOf operand).map .noneOf
  | .isNull => (truthOf operand).map .isNull
  | .isNotNull => (truthOf operand).map .isNotNull
  | .scalar relation =>
    match operand.bind Scalar.ofJson? with
    | some value => .ok (.scalar relation value)
    | none => .error (.notAScalar operand)

/-- The comparison of an operator with an operand, where null counts as none. -/
def make (operator : Operator) (operand : Option Json) : Except Refusal Comparison :=
  (fit operator (presentOperand operand)).mapError (.unfitOperand operator)

end Comparison

end AirInquiry
