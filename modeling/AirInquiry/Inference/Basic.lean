import AirInquiry.Constraints.Basic
import AirInquiry.Inference.Limit
import AirInquiry.Inference.Link
import AirInquiry.Inference.Naming
import AirInquiry.Inference.Phrase
import AirInquiry.Names.Index
import AirInquiry.Selection.Basic

/-!
# Constraints from the words of a question

Without a language model the constraints of a query are inferred by rule. Phrases for the latest or
the oldest rows give an order by date and hour and a limit of one row, unless the question names a
number of rows. Earlier results narrow the query down, and where none does, a known name in the
question. A question about today asks for that date. Only candidate fields are used, and what a
question says about other fields is passed over.
-/

set_option autoImplicit false
set_option relaxedAutoImplicit false

namespace AirInquiry.Inference

/-- The field for the date of a row. -/
def dateField : String := "date"

/-- The field for the hour of a row. -/
def hourField : String := "hour"

/-- The direction in which the rows asked for come first. -/
def Recency.direction : Recency → Direction
  | .latest => .descending
  | .oldest => .ascending

/-- The order for the rows asked for: by date and then by hour, as far as they are candidates. Rows
without a date have no order. -/
def orderFor (recency : Option Recency) (paths : List String) : List SortKey :=
  match recency with
  | none => []
  | some recency =>
    if paths.contains dateField then
      ([dateField, hourField].filter paths.contains).filterMap fun field ↦
        (SortKey.make field recency.direction none).toOption
    else []

/-- The number of rows asked for. -/
def limitFor (question : String) (recency : Option Recency) : Option Int :=
  match statedLimit question with
  | some count => some count
  | none => recency.map fun _ ↦ 1

/-- The filters that lead to the rows asked for: those from earlier results, or else the one on a
known name. -/
def subjectFilters (question : String) (paths : List String) (prior : Json.Entries)
    (names : NameIndex) : List Filter :=
  match linkFilters prior paths with
  | [] => ((names.firstMention question).bind fun name ↦ filterByName name paths).toList
  | filters => filters

/-- The filter on the date of the day, if the question is about it. -/
def todayFilters (question today : String) (paths : List String) : List Filter :=
  if isAboutToday question && paths.contains dateField then
    ((Condition.compare dateField (.scalar .equal) (some (.string today))).toOption.map
      Filter.leaf).toList
  else []

/-- All filters at once, if there are any. -/
def conjunction : List Filter → Option Filter
  | [] => none
  | [filter] => some filter
  | filters => some (.and filters)

/-- The constraints that a question asks for, if it asks for any. -/
def infer (question : String) (fields : List FieldChoice) (prior : Json.Entries)
    (names : NameIndex) (today : String) : Option Constraints :=
  let paths := fields.map fun field ↦ FieldChoice.unindexedPath field.path
  let recency := recencyOf question
  let order := orderFor recency paths
  let limit := limitFor question recency
  let filter := conjunction
    (subjectFilters question paths prior names ++ todayFilters question today paths)
  if filter.isNone && order.isEmpty && limit.isNone then none
  else (Constraints.make filter order limit none).toOption

end AirInquiry.Inference
