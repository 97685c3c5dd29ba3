import AirInquiry.Catalog.Basic
import AirInquiry.Json.Schema
import AirInquiry.Peer.Dialogue
import AirInquiry.Plan.Basic
import AirInquiry.Prompt
import AirInquiry.Text.Blank

/-!
# Planning

The language model is asked to split a question into a plan. Its reply is cleaned: inquiries
without text go, and what a lookup brings is reset, because no lookup has been made yet.
-/

set_option autoImplicit false
set_option relaxedAutoImplicit false

namespace AirInquiry.Plan

/-- Why there is no plan. -/
inductive Error where
  | blankQuestion
  | noInquiries
  | completion (error : Completion.Error)
  deriving DecidableEq, Repr

/-- The wording of a missing plan. -/
def Error.message : Error → String
  | .blankQuestion => "question is empty"
  | .noInquiries => "plan has no sub-questions in first_task"
  | .completion error => "planner completion failed: " ++ error.message

/-- An inquiry as it is before its lookup. -/
def asked (inquiry : Inquiry) : Inquiry :=
  { inquiry with data := [], query := "", error := none }

/-- The inquiries of a phase that have a text, as they are before their lookups. -/
def cleanPhase (phase : Phase) : Phase :=
  ⟨(phase.inquiries.map asked).filter fun item ↦ !Text.isBlankText item.question⟩

/-- A reply of the planner cleaned. A second phase without inquiries is no phase, and a first phase
needs one. -/
def clean (plan : Plan) : Except Error Plan :=
  let first := cleanPhase plan.first
  if first.isEmpty then .error .noInquiries
  else .ok ⟨first, (plan.second.map cleanPhase).filter fun phase ↦ !phase.isEmpty⟩

open Json.Schema

/-- The schema of a plan over the tables of a catalog. -/
def schema (catalog : Catalog) : Json :=
  let phase := closedObject ["sub_questions"]
    [("sub_questions", list (reference "sub_question"))]
  let inquiry := closedObject ["question", "description", "table_name"]
    [("description", ofType "string"), ("question", ofType "string"),
      ("table_name", oneOf catalog.names)]
  .object [("$defs", .object [("sub_question", inquiry), ("task", phase)]),
    ("additionalProperties", .bool false),
    ("properties", .object [("first_task", reference "task"),
      ("second_task", orNull (reference "task"))]),
    ("required", Json.ofStrings ["first_task", "second_task"]), ("type", .string "object")]

/-- The tables of a catalog, one to a line. -/
def tableLines (catalog : Catalog) : String :=
  Text.join "\n" (catalog.tables.map fun table ↦ "- " ++ table.name ++ ": " ++ table.description)

/-- What the planner is asked. -/
def request (catalog : Catalog) (today question : String) : Completion.Request :=
  Completion.ask Prompt.planningInstruction
    (Prompt.planningQuestion question (tableLines catalog) today)
    ⟨"todo_list", schema catalog, true⟩

/-- The plan that a reply gives. -/
def ofReply (reply : Except Completion.Error Plan) : Except Error Plan :=
  match reply with
  | .ok plan => clean plan
  | .error error => .error (.completion error)

/-- Plans the lookups for a question. -/
def make (catalog : Catalog) (today question : String) : Dialogue (Except Error Plan) :=
  let question := Text.trim question
  if question.isEmpty then .done (.error .blankQuestion)
  else do
    let reply ← Dialogue.completionAs ofJson (request catalog today question)
    pure (ofReply reply)

end AirInquiry.Plan
