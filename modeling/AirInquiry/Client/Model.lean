import AirInquiry.Client.Exchange
import AirInquiry.Peer.Completion
import AirInquiry.Text.Blank

/-!
# The client of the language model

Asks for a completion that satisfies a schema. The reply lists choices, of which the first one
counts, and its content is JSON text itself.
-/

set_option autoImplicit false
set_option relaxedAutoImplicit false

namespace AirInquiry.Client

/-- Where the language model is, the key that it asks for, and its name. -/
structure Model where
  address : String
  key : String
  name : String

namespace Model

/-- The target of completions, below an address whose slashes at the end do not count. -/
def target (model : Model) : String :=
  let base := (model.address.toList.reverse.dropWhile (· = '/')).reverse
  targetOf (String.ofList base ++ "/chat/completions")

/-- The form of the reply that is asked for. -/
def formatJson (target : Completion.Target) : Json :=
  .object [("json_schema", .object [("name", .string target.name), ("schema", target.schema),
    ("strict", .bool target.strict)]), ("type", .string "json_schema")]

/-- The body of a request. -/
def bodyOf (model : Model) (request : Completion.Request) : Json :=
  .object [("messages", .array (request.messages.map Message.toJson)),
    ("model", .string model.name), ("response_format", formatJson request.target),
    ("temperature", Json.ofNat 0)]

/-- The request for a completion, if it can be made. -/
def request (model : Model) (request : Completion.Request) : Option Request :=
  if isHeaderValue model.key then
    some {
      target := model.target
      headers := [jsonHeader, header "authorization" ("Bearer " ++ model.key)]
      body := model.bodyOf request }
  else none

/-- Reads the content of a choice. -/
def choiceContent : Json.Typed (Option String) :=
  let message : Json.Typed (Option String) :=
    Json.Typed.record
      [{ name := "content", optionalInObject := true,
         read := fun _ ↦ Json.Typed.optional Json.Typed.string }] none
  Json.Typed.record [{ name := "message", read := fun _ ↦ message }] none

/-- Reads the contents of the choices. -/
def choiceContents : Json.Typed (List (Option String)) :=
  Json.Typed.record [{ name := "choices", read := fun _ ↦ Json.Typed.list choiceContent }] []

/-- What the contents of the choices say. -/
def completionOf (schema : String) (contents : List (Option String)) : Completion.Reply :=
  match contents with
  | some content :: _ =>
    if Text.isBlankText content then .error .noContent
    else (Json.parse content).mapError fun error ↦ .missesSchema schema error.message
  | _ => .error .noContent

/-- What a reply says, or what is wrong when there is none. -/
def outcome (schema : String) : Option Reply → Completion.Reply
  | none => .error (.unreachable requestFault)
  | some reply =>
    if isSuccess reply.status then
      match choiceContents.parse reply.content with
      | .ok contents => completionOf schema contents
      | .error _ => .error (.unreachable replyFault)
    else .error (.status reply.status reply.content)

/-- Asks for a completion. -/
def complete (model : Model) (request : Completion.Request) (peer : Request → Reply) :
    Exchange Completion.Reply :=
  exchange (model.request request) peer (outcome request.target.name)

end Model

end AirInquiry.Client
