import AirInquiry.Text.Blank
import AirInquiry.Text.Search

/-!
# Where constraints come from

Constraints come from the language model or from the rules of `AirInquiry.Inference`.
-/

set_option autoImplicit false
set_option relaxedAutoImplicit false

namespace AirInquiry

/-- Where constraints come from. -/
inductive ConstraintSource where
  | model
  | rules
  deriving DecidableEq, Repr, Inhabited

namespace ConstraintSource

/-- The name under which a source is shown. -/
def name : ConstraintSource → String
  | .model => "Llm"
  | .rules => "Heuristic"

/-- The wording of a text that names no source. -/
def unknownMessage (text : String) : String := "未知的约束推断模式: " ++ text

/-- The source that a text names, in any case of letters and with blanks around it; or the text as
it was compared. -/
def parse (text : String) : Except String ConstraintSource :=
  let word := String.ofList ((Text.trimChars text.toList).map Char.toLower)
  if word = "llm" then .ok .model
  else if word = "heuristic" then .ok .rules
  else .error word

end ConstraintSource

end AirInquiry
