import AirInquiry.Answer.Fallback
import AirInquiry.Json.Schema
import AirInquiry.Peer.Dialogue
import AirInquiry.Prompt
import AirInquiry.Text.Blank

/-!
# Answers

The language model words the answer from the data. When it gives no answer or a blank one, the data
is listed instead. If a lookup failed, a note at the end says so in either case.
-/

set_option autoImplicit false
set_option relaxedAutoImplicit false

namespace AirInquiry.Answer

/-- The note that a part of the data is missing. -/
def incompleteNote : String :=
  "(Lưu ý: một phần truy vấn dữ liệu bị lỗi nên câu trả lời có thể chưa đầy đủ.)"

/-- An answer, with the note behind it if a part of the data is missing. -/
def withNote (answer : String) (degraded : Bool) : String :=
  if degraded then answer ++ "\n\n" ++ incompleteNote else answer

/-- The schema of an answer. -/
def schema : Json :=
  Json.Schema.closedObject ["answer"] [("answer", Json.Schema.ofType "string")]

/-- Reads the text of an answer. -/
def ofJson : Json → Except Json.Mismatch String :=
  Json.Decode.record "GeneratedAnswer"
    [{ name := "answer", required := true, read := fun value _ ↦ Json.Decode.string value }] ""

/-- What went wrong, one failure to a line. -/
def failuresText (failures : List String) : String :=
  if failures.isEmpty then "none" else Text.join "\n" failures

/-- What the model is asked. -/
def request (limit : Nat) (question : String) (data : Json.Entries)
    (queries failures : List String) : Completion.Request :=
  Completion.ask Prompt.answerInstruction
    (Prompt.answerQuestion question (Text.truncate limit (Json.pretty (.object data)))
      (Text.join "\n\n" queries) (failuresText failures))
    ⟨"answer", schema, true⟩

/-- The answer that a reply gives; the data is listed if there is no answer in it. -/
def ofReply (data : Json.Entries) (reply : Except Completion.Error String) : String :=
  match reply with
  | .ok answer => if Text.isBlankText answer then fallback data else answer
  | .error _ => fallback data

/-- Words the answer to a question. -/
def compose (limit : Nat) (question : String) (data : Json.Entries)
    (queries failures : List String) : Dialogue String := do
  let reply ← Dialogue.completionAs ofJson (request limit question data queries failures)
  pure (withNote (ofReply data reply) (!failures.isEmpty))

end AirInquiry.Answer
