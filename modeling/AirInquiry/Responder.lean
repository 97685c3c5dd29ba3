import AirInquiry.Answer.Basic
import AirInquiry.Lookup.Progress
import AirInquiry.Plan.Planning
import AirInquiry.Text.Duration

/-!
# Answering a question

A question is planned, the plan is carried out, and the answer is worded from what was collected.
Carrying out the plan has a time limit, and a plan that does not keep it is given up as a whole. The
report always has a text: an apology where no plan could be made, and a note where time ran out.
-/

set_option autoImplicit false
set_option relaxedAutoImplicit false

namespace AirInquiry

/-- What is reported on a question. -/
structure Report where
  answer : String
  data : Json.Entries := []
  queries : List String := []
  errors : List String := []

/-- A report as the entries of a JSON object. -/
def Report.entries (report : Report) : Json.Entries :=
  [("answer", .string report.answer), ("data", .object report.data),
    ("errors", Json.ofStrings report.errors), ("graphql_queries", Json.ofStrings report.queries)]

namespace Plan

/-- The queries of the inquiries that have one. -/
def queries (plan : Plan) : List String :=
  (plan.inquiries.map Inquiry.query).filter fun query ↦ !query.isEmpty

/-- The wording of what went wrong in an inquiry. -/
def failureText (inquiry : Inquiry) (error : String) : String :=
  "[" ++ inquiry.table ++ "] " ++ inquiry.question ++ ": " ++ error

/-- What went wrong in the inquiries that failed. -/
def failures (plan : Plan) : List String :=
  plan.inquiries.filterMap fun inquiry ↦ inquiry.error.map (failureText inquiry)

end Plan

/-- What questions are answered with. The time limit of a plan is given in microseconds. -/
structure Responder where
  setting : Lookup.Setting
  timeLimit : Nat

namespace Responder

variable {σ : Type}

/-- The answer when there is no plan. -/
def apology : String :=
  "Xin lỗi, tôi chưa thể phân tích câu hỏi của bạn. Bạn vui lòng diễn đạt lại giúp tôi nhé."

/-- The answer when time ran out. -/
def lateAnswer : String :=
  "Xin lỗi, việc truy vấn dữ liệu mất quá nhiều thời gian. Bạn vui lòng thử lại sau."

/-- The report on a question without a plan. -/
def unplanned (error : Plan.Error) : Report := { answer := apology, errors := [error.message] }

/-- The report on a question for which time ran out. -/
def timedOut (responder : Responder) : Report where
  answer := lateAnswer
  errors := ["request timed out after " ++ Text.duration (responder.timeLimit * 1000)]

/-- The time on the clock at which a plan that starts now is given up: the first full millisecond
after the time limit. -/
def deadline (responder : Responder) (now : Nat) : Nat := now + (responder.timeLimit + 999) / 1000

/-- Words the answer from a plan that has been carried out. -/
def conclude (peers : Peers σ) (responder : Responder) (question : String)
    (progress : Lookup.Progress) (session : Session σ) : Report × Session σ :=
  let queries := progress.plan.queries
  let failures := progress.plan.failures
  let (answer, session) :=
    (Answer.compose responder.setting.finder.contextLimit question progress.data queries
      failures).run peers session
  ({ answer, data := progress.data, queries, errors := failures }, session)

/-- Answers a question. -/
def answer (peers : Peers σ) (responder : Responder) (question : String) (session : Session σ) :
    Report × Session σ :=
  let (planned, session) :=
    (Plan.make responder.setting.catalog responder.setting.finder.today question).run peers session
  match planned with
  | .error error => (unplanned error, session)
  | .ok plan =>
    let deadline := responder.deadline session.clock
    match Lookup.carryOutPlan peers responder.setting (some deadline) plan session with
    | (none, session) => (responder.timedOut, session)
    | (some progress, session) => responder.conclude peers question progress session

end Responder

end AirInquiry
