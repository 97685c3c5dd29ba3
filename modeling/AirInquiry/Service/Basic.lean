import AirInquiry.Json.Typed
import AirInquiry.Responder
import AirInquiry.Service.MediaType

/-!
# The service

The service answers questions over HTTP, and tells how many names and which tables it knows. A
request is refused by the first of these that fails: its path, its method, the media type of its
body, the body itself, and at last a question that is blank.
-/

set_option autoImplicit false
set_option relaxedAutoImplicit false

namespace AirInquiry

namespace Service

/-- A request. -/
structure Request where
  method : String
  target : String
  contentType : Option String := none
  body : String := ""

/-- A response; its body is left out where it is no JSON text. -/
structure Response where
  status : Nat
  body : Option Json := none

/-- What a path leads to. -/
inductive Route where
  | ask
  | health
  | tables
  deriving DecidableEq, Repr

/-- The path of a request target, without the query behind it. -/
def pathOf (target : String) : String :=
  String.ofList (target.toList.takeWhile fun c ↦ c != '?' && c != '#')

/-- The route of a path. -/
def Route.ofPath? : String → Option Route
  | "/api/ask" => some .ask
  | "/api/health" => some .health
  | "/api/tables" => some .tables
  | _ => none

/-- The method of a route. -/
def Route.method : Route → String
  | .ask => "POST"
  | .health => "GET"
  | .tables => "GET"

/-- Whether the content type of a request is one of JSON. -/
def acceptsContent (contentType : Option String) : Bool :=
  match contentType with
  | none => false
  | some text =>
    text.toList.all (fun c ↦ 0x20 ≤ c.toNat && c.toNat < 0x7f || c = '\t') &&
      (MediaType.parse? text).any MediaType.isJson

/-- The largest number of bytes in a body. -/
def bodyLimit : Nat := 2097152

/-- Reads the question from a body. -/
def question : Json.Typed String :=
  Json.Typed.record [{ name := "question", read := fun _ ↦ Json.Typed.string }] ""

/-- A response without a body. -/
def refusal (status : Nat) : Response := { status }

/-- The response to a body that does not hold a question. -/
def bodyRefusal : Json.Failure → Response
  | .malformed _ _ => refusal 400
  | .mistyped => refusal 422

/-- The response to a blank question. -/
def blankQuestion : Response where
  status := 400
  body := some (.object [("error", .string "question must not be empty")])

/-- A report as a JSON value, under the identifier of its request. -/
def reportJson (identifier : String) (report : Report) : Json :=
  .object (report.entries ++ [("request_id", .string identifier)])

/-- The question of a request, or the response that refuses the request. -/
def questionOf (request : Request) : Except Response String :=
  if ¬ acceptsContent request.contentType then .error (refusal 415)
  else if bodyLimit < request.body.utf8ByteSize then .error (refusal 413)
  else
    match question.parse request.body with
    | .error failure => .error (bodyRefusal failure)
    | .ok question =>
      let question := Text.trim question
      if question.isEmpty then .error blankQuestion else .ok question

/-- What is known about the names. -/
def healthJson (responder : Responder) : Json :=
  .object [("known_entities", Json.ofNat responder.setting.finder.names.size),
    ("status", .string "ok")]

/-- A known table. -/
def tableJson (table : Table) : Json :=
  .object [("description", .string table.description),
    ("fields", Json.ofStrings (table.fields.map TableField.name)), ("name", .string table.name)]

/-- What is known about the tables. -/
def tablesJson (responder : Responder) : Json :=
  .array (responder.setting.catalog.tables.map tableJson)

/-- The response to a request for something that is known; one for its head has no body. -/
def known (method : String) (body : Json) : Response where
  status := 200
  body := if method = "HEAD" then none else some body

/-- Whether a route takes a method; what can be got can be asked for its head. -/
def Route.takes (route : Route) (method : String) : Bool :=
  method = route.method || route.method = "GET" && method = "HEAD"

/-- Answers the question of a request. -/
def ask {σ : Type} (peers : Peers σ) (responder : Responder) (identifier : String)
    (request : Request) (session : Session σ) : Response × Session σ :=
  match questionOf request with
  | .error response => (response, session)
  | .ok question =>
    let (report, session) := responder.answer peers question session
    ({ status := 200, body := some (reportJson identifier report) }, session)

/-- Answers a request. -/
def respond {σ : Type} (peers : Peers σ) (responder : Responder) (identifier : String)
    (request : Request) (session : Session σ) : Response × Session σ :=
  match Route.ofPath? (pathOf request.target) with
  | none => (refusal 404, session)
  | some route =>
    if ¬ route.takes request.method then (refusal 405, session)
    else
      match route with
      | .ask => ask peers responder identifier request session
      | .health => (known request.method (healthJson responder), session)
      | .tables => (known request.method (tablesJson responder), session)

end Service

end AirInquiry
