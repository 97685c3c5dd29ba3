import AirInquiry.Json.Decode

/-!
# Completions by a language model

A request consists of messages and a target: a named JSON schema that the reply should satisfy. The
reply is a JSON value or a reason why there is none. `typed` reads a reply as a value of a type and
answers a reply of another shape like a reply that misses the schema.
-/

set_option autoImplicit false
set_option relaxedAutoImplicit false

namespace AirInquiry

/-- Who a message is from. -/
inductive Role where
  | system
  | user
  deriving DecidableEq, Repr

/-- The written form of a role. -/
def Role.text : Role → String
  | .system => "system"
  | .user => "user"

/-- Reads a role. -/
def Role.ofJson : Json → Except Json.Mismatch Role :=
  Json.Decode.variant ([.system, .user].map fun role ↦ (role.text, role))

/-- A message to the model. -/
structure Message where
  role : Role
  content : String
  deriving DecidableEq, Repr

/-- A message as a JSON value. -/
def Message.toJson (message : Message) : Json :=
  .object [("content", .string message.content), ("role", .string message.role.text)]

/-- The fields of a message's record. -/
def Message.recordFields : List (Json.Decode.Field Message) :=
  [{ name := "role", required := true,
     read := fun value message ↦ do return { message with role := ← Role.ofJson value } },
   { name := "content", required := true,
     read := fun value message ↦ do
       return { message with content := ← Json.Decode.string value } }]

/-- Reads a message. -/
def Message.ofJson : Json → Except Json.Mismatch Message :=
  Json.Decode.record "ChatMessage" Message.recordFields ⟨.system, ""⟩

namespace Completion

/-- The schema that a reply should satisfy; a strict target allows nothing else. -/
structure Target where
  name : String
  schema : Json
  strict : Bool

/-- What is asked of the model. -/
structure Request where
  messages : List Message
  target : Target

/-- A request of a system message and a user message. -/
def ask (system user : String) (target : Target) : Request :=
  ⟨[⟨.system, system⟩, ⟨.user, user⟩], target⟩

/-- The content of the last message. -/
def Request.lastContent (request : Request) : String :=
  (request.messages.getLast?.map Message.content).getD ""

/-- Why there is no reply. -/
inductive Error where
  | unreachable (detail : String)
  | status (code : Nat) (body : String)
  | noContent
  | missesSchema (schema reason : String)
  deriving DecidableEq, Repr

/-- The wording of a missing reply. -/
def Error.message : Error → String
  | .unreachable detail => "llm request failed: " ++ detail
  | .status code body => "llm returned status " ++ toString code ++ ": " ++ body
  | .noContent => "llm returned an empty completion"
  | .missesSchema schema reason =>
    "completion does not match schema " ++ Json.ticked schema ++ ": " ++ reason

/-- A reply or the reason why there is none. -/
abbrev Reply := Except Error Json

/-- A reply read as a value of a type. -/
def typed {α : Type} (schema : String) (read : Json → Except Json.Mismatch α) :
    Reply → Except Error α
  | .error error => .error error
  | .ok value => (read value).mapError fun mismatch ↦ .missesSchema schema mismatch.message

end Completion

end AirInquiry
