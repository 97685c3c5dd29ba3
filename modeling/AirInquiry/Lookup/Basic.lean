import AirInquiry.Inference.Finder
import AirInquiry.Lookup.Posting
import AirInquiry.Lookup.Selection
import AirInquiry.Plan.Basic
import AirInquiry.Query.Build

/-!
# Looking up an inquiry

An inquiry is looked up in four steps: fields are selected, constraints are found, the query is
built, and the query is posted. A lookup ends early only where no fields could be selected. Missing
constraints leave the query without any, and what goes wrong at the data service is part of the
findings. So a lookup always ends, and no failure reaches its siblings.
-/

set_option autoImplicit false
set_option relaxedAutoImplicit false

namespace AirInquiry

namespace Lookup

/-- What lookups work with. -/
structure Setting where
  catalog : Catalog
  finder : ConstraintFinder

/-- How a lookup ended: without a selection of fields, or with the findings of a query. -/
inductive Outcome where
  | unselected
  | posted (query : String) (findings : Findings)

namespace Outcome

/-- What is wrong with a lookup that has no selection of fields. -/
def unselectedMessage : String := "field selection failed"

/-- The word for how far a lookup has come. -/
def stageText : Outcome → String
  | .unselected => "PENDING"
  | .posted _ _ => "EXECUTED"

/-- The query of a lookup. -/
def query : Outcome → String
  | .unselected => ""
  | .posted query _ => query

/-- The data that a lookup has brought. -/
def data : Outcome → Json.Entries
  | .unselected => []
  | .posted _ findings => findings.data.getD []

/-- What went wrong in a lookup. -/
def error : Outcome → Option String
  | .unselected => some unselectedMessage
  | .posted _ findings => findings.error

/-- An inquiry with what its lookup has brought. -/
def fillIn (outcome : Outcome) (inquiry : Inquiry) : Inquiry :=
  { inquiry with data := outcome.data, query := outcome.query, error := outcome.error }

end Outcome

/-- Looks up an inquiry for which the fields are selected. -/
def lookUpFields (setting : Setting) (prior : Json.Entries) (inquiry : Inquiry)
    (fields : List FieldChoice) : Dialogue Outcome := do
  let constraints ←
    setting.finder.find inquiry.question inquiry.description fields prior
  let query := (Query.build inquiry.table fields constraints).text
  let findings ← post query
  pure (.posted query findings)

/-- Looks up an inquiry, given the results of earlier phases. -/
def lookUp (setting : Setting) (prior : Json.Entries) (inquiry : Inquiry) :
    Dialogue Outcome := do
  let selection ← select setting.catalog setting.finder.contextLimit inquiry.question
    inquiry.description inquiry.table
  match selection with
  | none => pure .unselected
  | some fields => lookUpFields setting prior inquiry fields

/-- Looks up an inquiry and writes into it what the lookup has brought. -/
def fill (setting : Setting) (prior : Json.Entries) (inquiry : Inquiry) :
    Dialogue Inquiry := do
  let outcome ← lookUp setting prior inquiry
  pure (outcome.fillIn inquiry)

end Lookup

end AirInquiry
