import AirInquiry.Client.Exchange
import AirInquiry.Peer.Transport

/-!
# The client of the data service

Posts a query with its variables, and with a secret if there is one. A reply with a status of
success has to hold a response.
-/

set_option autoImplicit false
set_option relaxedAutoImplicit false

namespace AirInquiry.Client

/-- Where the data service is, and the secret that it asks for. -/
structure DataService where
  address : String
  secret : String

namespace DataService

/-- The header of the secret. -/
def secretHeader : String := "x-hasura-admin-secret"

/-- The entry for the variables, if there are any. -/
def argumentsEntry : Option Json → List (String × Json)
  | none => []
  | some arguments => [("variables", arguments)]

/-- The request for a query, if it can be made. -/
def request (service : DataService) (query : String) (arguments : Option Json) : Option Request :=
  if isHeaderValue service.secret then
    some {
      target := targetOf service.address
      headers := jsonHeader ::
        (if service.secret.isEmpty then [] else [header secretHeader service.secret])
      body := .object (("query", .string query) :: argumentsEntry arguments) }
  else none

/-- Reads a reported error. -/
def errorText : Json.Typed ServiceError :=
  Json.Typed.record
    [{ name := "message",
       read := fun error depth ↦ do
         return { error with message := ← Json.Typed.string depth } },
     { name := "extensions", optionalInObject := true, optionalInList := true,
       read := fun error depth ↦ do
         return { error with extensions := ← Json.Typed.optional Json.Typed.anything depth } }]
    ⟨"", none⟩

/-- Reads a response. -/
def responseText : Json.Typed Response :=
  Json.Typed.record
    [{ name := "data", optionalInObject := true, optionalInList := true,
       read := fun response depth ↦ do
         return { response with data := ← Json.Typed.optional Json.Typed.dictionary depth } },
     { name := "errors", optionalInObject := true, optionalInList := true,
       read := fun response depth ↦ do
         return { response with
           errors := ← Json.Typed.optional (Json.Typed.list errorText) depth } }]
    {}

/-- What a reply says, or what is wrong when there is none. -/
def outcome : Option Reply → Transport.Reply
  | none => .error (.unreachable requestFault)
  | some reply =>
    if isSuccess reply.status then
      match responseText.parse reply.content with
      | .ok response => .ok response
      | .error _ => .error (.unreachable replyFault)
    else .error (.status reply.status reply.content)

/-- Posts a query. -/
def post (service : DataService) (query : String) (arguments : Option Json)
    (peer : Request → Reply) : Exchange Transport.Reply :=
  exchange (service.request query arguments) peer outcome

end DataService

end AirInquiry.Client
