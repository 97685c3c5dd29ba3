import AirInquiry.Peer.Dialogue

/-!
# Sessions

Peers answer calls, each after a delay, and may remember what they were asked. A session holds their
memory, a clock in milliseconds, and the calls made so far in their order. `Dialogue.run` carries
out one dialogue by itself: it waits for every reply before it goes on.
-/

set_option autoImplicit false
set_option relaxedAutoImplicit false

namespace AirInquiry

/-- A call of a peer. -/
inductive Call where
  | complete (request : Completion.Request)
  | post (query : String)

/-- A reply that arrives after a delay in milliseconds. -/
structure Delayed (α : Type) where
  delay : Nat
  reply : α

/-- The language model and the data service, with a common memory of type `σ`. -/
structure Peers (σ : Type) where
  complete : Completion.Request → σ → Delayed Completion.Reply × σ
  post : String → σ → Delayed Transport.Reply × σ

/-- The state of a run. -/
structure Session (σ : Type) where
  memory : σ
  clock : Nat := 0
  calls : List Call := []

namespace Session

variable {σ : Type}

/-- Asks for a completion. The reply is known at once and due after its delay. -/
def complete (peers : Peers σ) (request : Completion.Request) (session : Session σ) :
    Delayed Completion.Reply × Session σ :=
  let (answer, memory) := peers.complete request session.memory
  (answer, { session with memory, calls := session.calls ++ [.complete request] })

/-- Posts a query. The reply is known at once and due after its delay. -/
def post (peers : Peers σ) (query : String) (session : Session σ) :
    Delayed Transport.Reply × Session σ :=
  let (answer, memory) := peers.post query session.memory
  (answer, { session with memory, calls := session.calls ++ [.post query] })

/-- Lets time pass. -/
def wait (delay : Nat) (session : Session σ) : Session σ :=
  { session with clock := session.clock + delay }

end Session

/-- Carries out a dialogue, waiting for every reply. -/
def Dialogue.run {α σ : Type} (peers : Peers σ) : Dialogue α → Session σ → α × Session σ
  | .done result, session => (result, session)
  | .complete request next, session =>
    let (answer, session) := session.complete peers request
    (next answer.reply).run peers (session.wait answer.delay)
  | .post query next, session =>
    let (answer, session) := session.post peers query
    (next answer.reply).run peers (session.wait answer.delay)

end AirInquiry
