import AirInquiry.Peer.Completion
import AirInquiry.Peer.Transport

/-!
# Dialogues with the peers

A dialogue is a computation that asks for completions and posts queries and goes on with the
replies. It is data: what it does next is one of three cases, and how replies come about is left
open. So one dialogue can be run alone, run among others, or be followed along every course it may
take.
-/

set_option autoImplicit false
set_option relaxedAutoImplicit false

namespace AirInquiry

/-- A computation that talks to the language model and to the data service. -/
inductive Dialogue (α : Type) where
  | done (result : α)
  | complete (request : Completion.Request) (next : Completion.Reply → Dialogue α)
  | post (query : String) (next : Transport.Reply → Dialogue α)

namespace Dialogue

variable {α β : Type}

/-- One dialogue after another. -/
def bind (first : Dialogue α) (second : α → Dialogue β) : Dialogue β :=
  match first with
  | .done result => second result
  | .complete request next => .complete request fun reply ↦ (next reply).bind second
  | .post query next => .post query fun reply ↦ (next reply).bind second

instance : Monad Dialogue where
  pure := .done
  bind := Dialogue.bind

/-- Asks for one completion. -/
def completion (request : Completion.Request) : Dialogue Completion.Reply :=
  .complete request .done

/-- Posts one query. -/
def posting (query : String) : Dialogue Transport.Reply := .post query .done

/-- Asks for one completion and reads it as a value of a type. -/
def completionAs (read : Json → Except Json.Mismatch α) (request : Completion.Request) :
    Dialogue (Except Completion.Error α) :=
  .complete request fun reply ↦ .done (Completion.typed request.target.name read reply)

end Dialogue

end AirInquiry
