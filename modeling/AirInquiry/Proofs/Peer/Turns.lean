import AirInquiry.Proofs.Peer.Calls

/-!
# The turns of a dialogue

A turn is a call together with the reply to it. `Dialogue.Reaches` says which turns lead from one
dialogue to what is left of it, whatever the replies are. What two dialogues one after another reach
is reached by one after the other (`Reaches.exists_of_bind`), and a dialogue that ensures its calls
keeps to them in its turns (`Reaches.of_ensures`).

A dialogue decides nothing by itself, so its result can be read off the turns (`Dialogue.result?`,
`Reaches.result?_append`).
-/

set_option autoImplicit false
set_option relaxedAutoImplicit false

namespace AirInquiry

/-- The query that a call posts, if it posts one. -/
def Call.query? : Call → Option String
  | .complete _ => none
  | .post query => some query

/-- The queries that are posted among calls, in order. -/
def Call.queries (calls : List Call) : List String := calls.filterMap Call.query?

theorem Call.queries_append (first second : List Call) :
    queries (first ++ second) = queries first ++ queries second :=
  List.filterMap_append

theorem Call.queries_eq_nil {calls : List Call} (h : ∀ call ∈ calls, call.query? = none) :
    queries calls = [] :=
  List.filterMap_eq_nil_iff.2 h

/-- A call with the reply to it. -/
inductive Turn where
  | complete (request : Completion.Request) (reply : Completion.Reply)
  | post (query : String) (reply : Transport.Reply)

/-- The call of a turn. -/
def Turn.call : Turn → Call
  | .complete request _ => .complete request
  | .post query _ => .post query

variable {α β : Type} {allowed : Call → Prop} {expected : α → Prop}

namespace Dialogue

/-- The turns lead from a dialogue to what is left of it. -/
inductive Reaches : Dialogue α → List Turn → Dialogue α → Prop where
  | refl (dialogue : Dialogue α) : Reaches dialogue [] dialogue
  | complete {request : Completion.Request} {next : Completion.Reply → Dialogue α}
      {turns : List Turn} {rest : Dialogue α} (reply : Completion.Reply)
      (h : Reaches (next reply) turns rest) :
      Reaches (.complete request next) (.complete request reply :: turns) rest
  | post {query : String} {next : Transport.Reply → Dialogue α} {turns : List Turn}
      {rest : Dialogue α} (reply : Transport.Reply) (h : Reaches (next reply) turns rest) :
      Reaches (.post query next) (.post query reply :: turns) rest

namespace Reaches

variable {first second third : Dialogue α} {turns early late : List Turn} {result : α}

theorem trans (hfirst : first.Reaches early second) (hsecond : second.Reaches late third) :
    first.Reaches (early ++ late) third := by
  induction hfirst with
  | refl => exact hsecond
  | complete reply _ ih => exact .complete reply (ih hsecond)
  | post reply _ ih => exact .post reply (ih hsecond)

/-- The turns of one dialogue after another are those of the first, up to its result, and those of
the second. -/
theorem exists_of_bind {last : β} {next : α → Dialogue β}
    (h : (first >>= next).Reaches turns (.done last)) : ∃ early late result,
      turns = early ++ late ∧ first.Reaches early (.done result) ∧
        (next result).Reaches late (.done last) := by
  change (first.bind next).Reaches turns (.done last) at h
  induction first generalizing turns with
  | done result => exact ⟨[], turns, result, rfl, .refl _, h⟩
  | complete request continue_ ih =>
    cases h with
    | complete reply h =>
      obtain ⟨early, late, result, rfl, hfirst, hsecond⟩ := ih reply h
      exact ⟨_ :: early, late, result, rfl, .complete reply hfirst, hsecond⟩
  | post query continue_ ih =>
    cases h with
    | post reply h =>
      obtain ⟨early, late, result, rfl, hfirst, hsecond⟩ := ih reply h
      exact ⟨_ :: early, late, result, rfl, .post reply hfirst, hsecond⟩

theorem of_done (h : (Dialogue.done result).Reaches turns second) :
    turns = [] ∧ second = .done result := by
  cases h
  exact ⟨rfl, rfl⟩

/-- The turns of a dialogue that ensures its calls. -/
theorem of_ensures (hturns : first.Reaches turns (.done result))
    (h : first.Ensures allowed expected) :
    (∀ turn ∈ turns, allowed turn.call) ∧ expected result := by
  induction h generalizing turns with
  | done h =>
    obtain ⟨rfl, heq⟩ := hturns.of_done
    cases heq
    exact ⟨by simp, h⟩
  | complete hcall _ ih =>
    cases hturns with
    | complete reply hturns =>
      obtain ⟨hrest, hresult⟩ := ih reply hturns
      exact ⟨List.forall_mem_cons.2 ⟨hcall, hrest⟩, hresult⟩
  | post hcall _ ih =>
    cases hturns with
    | post reply hturns =>
      obtain ⟨hrest, hresult⟩ := ih reply hturns
      exact ⟨List.forall_mem_cons.2 ⟨hcall, hrest⟩, hresult⟩

end Reaches

/-- The result of a dialogue that hears the replies of the turns one after another, if they are
enough. -/
def result? : Dialogue α → List Turn → Option α
  | .done result, _ => some result
  | .complete _ next, .complete _ reply :: turns => (next reply).result? turns
  | .post _ next, .post _ reply :: turns => (next reply).result? turns
  | _, _ => none

theorem Reaches.result?_append {dialogue : Dialogue α} {turns : List Turn} {result : α}
    (h : dialogue.Reaches turns (.done result)) (more : List Turn) :
    dialogue.result? (turns ++ more) = some result := by
  generalize hend : Dialogue.done result = rest at h
  induction h with
  | refl =>
    subst hend
    exact result?.eq_1 ..
  | complete reply _ ih => exact ih hend
  | post reply _ ih => exact ih hend

end Dialogue

end AirInquiry
