import AirInquiry.Peer.Dialogue
import AirInquiry.Text.Blank
import AirInquiry.Text.Search

/-!
# Posting a query

What posting a query brings: data, an error, or data next to an error when the data service answers
in part. A blank query is not posted.
-/

set_option autoImplicit false
set_option relaxedAutoImplicit false

namespace AirInquiry.Lookup

/-- What posting a query has brought. -/
structure Findings where
  data : Option Json.Entries := none
  error : Option String := none

/-- What is wrong with a blank query. -/
def emptyQueryMessage : String := "empty query"

/-- The errors of a response in one text, if there are any. -/
def errorsText : Option (List ServiceError) → Option String
  | none => none
  | some [] => none
  | some errors => some (Text.join "; " (errors.map ServiceError.message))

/-- What a reply brings. -/
def findingsOf : Transport.Reply → Findings
  | .ok response => ⟨response.data, errorsText response.errors⟩
  | .error error => ⟨none, some error.message⟩

/-- Posts a query. -/
def post (query : String) : Dialogue Findings :=
  if Text.isBlankText query then pure ⟨none, some emptyQueryMessage⟩
  else do
    let reply ← Dialogue.posting query
    pure (findingsOf reply)

end AirInquiry.Lookup
