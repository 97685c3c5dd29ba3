import AirInquiry.Peer.Pool
import Mathlib.Logic.Relation

/-!
# Dialogues in any order

When replies depend on nothing but the content of the calls (`Replies`), a dialogue has one outcome
(`Dialogue.outcome`). Dialogues that run side by side are strands: a strand is ready to go on, or a
call of it has been started and its reply is awaited. In one move one strand starts its call or
hears its reply, and any strand that can may make the next move (`Strand.Moves`).

However the moves of several strands are interleaved, every strand keeps its outcome
(`Strand.Moves.outcomes_eq`), no run of moves goes on for ever (`Strand.moves_wellFounded`), and a
run gets stuck only when all strands are finished (`Strand.finished_or_moves`). A pool on one clock
is one such order: with delays of any length and peers that remember what they like, it gives the
outcomes of its dialogues (`Pool.runAll_eq_outcomes`).
-/

set_option autoImplicit false
set_option relaxedAutoImplicit false

namespace AirInquiry

variable {α σ : Type}

/-- Replies that depend on nothing but the content of the call. -/
structure Replies where
  complete : Completion.Request → Completion.Reply
  post : String → Transport.Reply

namespace Replies

/-- The peers give these replies, after whatever delay and whatever they remember. -/
structure Govern (replies : Replies) (peers : Peers σ) : Prop where
  complete : ∀ request memory, (peers.complete request memory).1.reply = replies.complete request
  post : ∀ query memory, (peers.post query memory).1.reply = replies.post query

/-- Peers that give these replies, after delays that may be different for every call. -/
def delayed (replies : Replies) (delay : Nat → Nat) : Peers Nat where
  complete := fun request asked ↦ (⟨delay asked, replies.complete request⟩, asked + 1)
  post := fun query asked ↦ (⟨delay asked, replies.post query⟩, asked + 1)

theorem govern_delayed (replies : Replies) (delay : Nat → Nat) :
    replies.Govern (replies.delayed delay) :=
  ⟨fun _ _ ↦ rfl, fun _ _ ↦ rfl⟩

/-- Two kinds of replies are the same for a call. -/
def AgreeOn (first second : Replies) : Call → Prop
  | .complete request => first.complete request = second.complete request
  | .post query => first.post query = second.post query

end Replies

variable {replies : Replies}

namespace Dialogue

/-- What a dialogue ends in. -/
def outcome (replies : Replies) : Dialogue α → α
  | .done result => result
  | .complete request next => (next (replies.complete request)).outcome replies
  | .post query next => (next (replies.post query)).outcome replies

/-- The calls that a dialogue makes. -/
def calls (replies : Replies) : Dialogue α → List Call
  | .done _ => []
  | .complete request next => .complete request :: (next (replies.complete request)).calls replies
  | .post query next => .post query :: (next (replies.post query)).calls replies

theorem outcome_bind {β : Type} (first : Dialogue α) (second : α → Dialogue β) :
    (first >>= second).outcome replies = (second (first.outcome replies)).outcome replies := by
  change (first.bind second).outcome replies = _
  induction first with
  | done result => rfl
  | complete request next ih => exact ih _
  | post query next ih => exact ih _

/-- A dialogue that is carried out alone gives its outcome. -/
theorem run_eq_outcome {peers : Peers σ} (h : replies.Govern peers) (dialogue : Dialogue α)
    (session : Session σ) : (dialogue.run peers session).1 = dialogue.outcome replies := by
  induction dialogue generalizing session with
  | done result => rfl
  | complete request next ih =>
    have hreply : (session.complete peers request).1.reply = replies.complete request :=
      h.complete request session.memory
    rw [outcome, ← hreply]
    exact ih _ _
  | post query next ih =>
    have hreply : (session.post peers query).1.reply = replies.post query :=
      h.post query session.memory
    rw [outcome, ← hreply]
    exact ih _ _

/-- The replies to calls that a dialogue does not make do not matter to it. -/
theorem outcome_congr {other : Replies} {dialogue : Dialogue α}
    (h : ∀ call ∈ dialogue.calls replies, replies.AgreeOn other call) :
    dialogue.outcome other = dialogue.outcome replies := by
  induction dialogue with
  | done result => rfl
  | complete request next ih =>
    rw [calls, List.forall_mem_cons] at h
    have hsame : replies.complete request = other.complete request := h.1
    rw [outcome, outcome, ← hsame]
    exact ih _ h.2
  | post query next ih =>
    rw [calls, List.forall_mem_cons] at h
    have hsame : replies.post query = other.post query := h.1
    rw [outcome, outcome, ← hsame]
    exact ih _ h.2

end Dialogue

/-! ### Strands -/

/-- A dialogue that is ready to go on, or that waits for the reply to a call. -/
inductive Strand (α : Type) where
  | ready (rest : Dialogue α)
  | completing (request : Completion.Request) (next : Completion.Reply → Dialogue α)
  | posting (query : String) (next : Transport.Reply → Dialogue α)

namespace Strand

/-- What a strand ends in. -/
def outcome (replies : Replies) : Strand α → α
  | .ready rest => rest.outcome replies
  | .completing request next => (next (replies.complete request)).outcome replies
  | .posting query next => (next (replies.post query)).outcome replies

/-- A strand starts its next call, or hears the reply to it. -/
inductive Step (replies : Replies) : Strand α → Strand α → Prop where
  | ask (request : Completion.Request) (next : Completion.Reply → Dialogue α) :
      Step replies (.ready (.complete request next)) (.completing request next)
  | hear (request : Completion.Request) (next : Completion.Reply → Dialogue α) :
      Step replies (.completing request next) (.ready (next (replies.complete request)))
  | send (query : String) (next : Transport.Reply → Dialogue α) :
      Step replies (.ready (.post query next)) (.posting query next)
  | receive (query : String) (next : Transport.Reply → Dialogue α) :
      Step replies (.posting query next) (.ready (next (replies.post query)))

/-- One of several strands makes a step, and the others stay as they are. -/
inductive Moves (replies : Replies) : List (Strand α) → List (Strand α) → Prop where
  | first {strand next : Strand α} (h : Step replies strand next) (rest : List (Strand α)) :
      Moves replies (strand :: rest) (next :: rest)
  | later (strand : Strand α) {rest next : List (Strand α)} (h : Moves replies rest next) :
      Moves replies (strand :: rest) (strand :: next)

/-- The strands of dialogues of which none has begun. -/
def start (dialogues : List (Dialogue α)) : List (Strand α) := dialogues.map .ready

/-- The strands of finished dialogues. -/
def finished (results : List α) : List (Strand α) := results.map fun result ↦ .ready (.done result)

theorem Step.outcome_eq {strand next : Strand α} (h : Step replies strand next) :
    next.outcome replies = strand.outcome replies := by
  cases h <;> rfl

/-- A move changes the outcome of no strand. -/
theorem Moves.outcomes_eq {strands next : List (Strand α)} (h : Moves replies strands next) :
    next.map (outcome replies) = strands.map (outcome replies) := by
  induction h with
  | first h rest => rw [List.map_cons, List.map_cons, h.outcome_eq]
  | later strand _ ih => rw [List.map_cons, List.map_cons, ih]

theorem outcomes_start (dialogues : List (Dialogue α)) :
    (start dialogues).map (outcome replies) = dialogues.map (Dialogue.outcome replies) := by
  rw [start, List.map_map]
  rfl

theorem outcomes_finished (results : List α) :
    (finished results).map (outcome replies) = results := by
  rw [finished, List.map_map]
  exact List.map_id' results

/-! ### Runs end -/

theorem acc_ready (rest : Dialogue α) :
    Acc (fun next strand ↦ Step replies strand next) (.ready rest) := by
  induction rest with
  | done result => exact ⟨_, fun _ h ↦ by cases h⟩
  | complete request next ih =>
    refine ⟨_, fun strand h ↦ ?_⟩
    cases h
    exact ⟨_, fun strand h ↦ by cases h; exact ih _⟩
  | post query next ih =>
    refine ⟨_, fun strand h ↦ ?_⟩
    cases h
    exact ⟨_, fun strand h ↦ by cases h; exact ih _⟩

/-- By induction on what is left of the dialogue. -/
theorem step_wellFounded :
    WellFounded fun next strand : Strand α ↦ Step replies strand next := by
  refine ⟨fun strand ↦ ?_⟩
  cases strand with
  | ready rest => exact acc_ready rest
  | completing request next => exact ⟨_, fun strand h ↦ by cases h; exact acc_ready _⟩
  | posting query next => exact ⟨_, fun strand h ↦ by cases h; exact acc_ready _⟩

theorem acc_cons {strand : Strand α} {rest : List (Strand α)}
    (hstrand : Acc (fun next strand ↦ Step replies strand next) strand)
    (hrest : Acc (fun next strands ↦ Moves replies strands next) rest) :
    Acc (fun next strands ↦ Moves replies strands next) (strand :: rest) := by
  induction hstrand generalizing rest with
  | intro strand _ ih =>
    induction hrest with
    | intro rest hbelow ihrest =>
      refine ⟨_, fun next h ↦ ?_⟩
      cases h with
      | first h => exact ih _ h ⟨_, hbelow⟩
      | later _ h => exact ihrest _ h

/-- No run of moves goes on for ever. -/
theorem moves_wellFounded :
    WellFounded fun next strands : List (Strand α) ↦ Moves replies strands next := by
  refine ⟨fun strands ↦ ?_⟩
  induction strands with
  | nil => exact ⟨_, fun _ h ↦ by cases h⟩
  | cons strand rest ih => exact acc_cons (step_wellFounded.apply strand) ih

theorem finished_or_step (replies : Replies) (strand : Strand α) :
    (∃ result, strand = .ready (.done result)) ∨ ∃ next, Step replies strand next := by
  cases strand with
  | ready rest =>
    cases rest with
    | done result => exact .inl ⟨result, rfl⟩
    | complete request next => exact .inr ⟨_, .ask request next⟩
    | post query next => exact .inr ⟨_, .send query next⟩
  | completing request next => exact .inr ⟨_, .hear request next⟩
  | posting query next => exact .inr ⟨_, .receive query next⟩

/-- Strands of which none can move are finished. -/
theorem finished_or_moves (replies : Replies) (strands : List (Strand α)) :
    (∃ results, strands = finished results) ∨ ∃ next, Moves replies strands next := by
  induction strands with
  | nil => exact .inl ⟨[], rfl⟩
  | cons strand rest ih =>
    rcases finished_or_step replies strand with ⟨result, rfl⟩ | ⟨next, hstep⟩
    · rcases ih with ⟨results, rfl⟩ | ⟨next, hmoves⟩
      · exact .inl ⟨result :: results, rfl⟩
      · exact .inr ⟨_, .later _ hmoves⟩
    · exact .inr ⟨_, .first hstep rest⟩

end Strand

/-! ### Pools -/

/-- What a place ends in. -/
def Place.outcome (replies : Replies) : Place α → α
  | .finished result => result
  | .waiting _ rest => rest.outcome replies

theorem Dialogue.outcome_proceed {peers : Peers σ} (h : replies.Govern peers)
    (dialogue : Dialogue α) (session : Session σ) :
    (dialogue.proceed peers session).1.outcome replies = dialogue.outcome replies := by
  induction dialogue generalizing session with
  | done result => rfl
  | complete request next ih =>
    have hreply : (session.complete peers request).1.reply = replies.complete request :=
      h.complete request session.memory
    simp only [proceed, hreply]
    split
    · exact ih _ _
    · rfl
  | post query next ih =>
    have hreply : (session.post peers query).1.reply = replies.post query :=
      h.post query session.memory
    simp only [proceed, hreply]
    split
    · exact ih _ _
    · rfl

namespace Pool

theorem map_inOrder {β γ δ : Type} {step : β → Session σ → γ × Session σ} {view : γ → δ}
    {expected : β → δ} (h : ∀ item session, view (step item session).1 = expected item)
    (items : List β) (session : Session σ) :
    (inOrder step items session).1.map view = items.map expected := by
  induction items generalizing session with
  | nil => rfl
  | cons item rest ih => simp [inOrder, h, ih]

theorem outcome_wakePlace {peers : Peers σ} (h : replies.Govern peers) (now : Nat)
    (place : Place α) (session : Session σ) :
    (wakePlace peers now place session).1.outcome replies = place.outcome replies := by
  cases place with
  | finished result => rfl
  | waiting due rest =>
    simp only [wakePlace]
    split
    · exact Dialogue.outcome_proceed h rest session
    · rfl

/-- When nothing is awaited, the results are the outcomes of all places. -/
theorem results_eq_outcomes {pool : Pool α} (h : pool.earliest? = none) :
    pool.results = pool.places.map (Place.outcome replies) := by
  obtain ⟨places⟩ := pool
  rw [earliest?, List.min?_eq_none_iff, List.filterMap_eq_nil_iff] at h
  change places.filterMap Place.result? = places.map (Place.outcome replies)
  induction places with
  | nil => rfl
  | cons place rest ih =>
    rw [List.forall_mem_cons] at h
    cases place with
    | finished result =>
      rw [List.map_cons, ← ih h.2]
      rfl
    | waiting due rest => cases h.1

/-- The results of a run that is not given up are the outcomes of its places. -/
theorem run_eq_outcomes {peers : Peers σ} (h : replies.Govern peers) (deadline : Option Nat)
    (pool : Pool α) (session : Session σ) :
    ∀ results ∈ (pool.run peers deadline session).1,
      results = pool.places.map (Place.outcome replies) := by
  fun_induction run peers deadline pool session with
  | case1 pool session hnone =>
    intro results hresults
    cases hresults
    exact results_eq_outcomes hnone
  | case2 => simp
  | case3 pool session due _ _ next ih =>
    intro results hresults
    rw [ih results hresults]
    exact map_inOrder (outcome_wakePlace h due) pool.places _

/-- Whatever the delays are, dialogues that run side by side end in their outcomes. -/
theorem runAll_eq_outcomes {peers : Peers σ} (h : replies.Govern peers)
    (dialogues : List (Dialogue α)) (session : Session σ) :
    (runAll peers none dialogues session).1 = some (dialogues.map (Dialogue.outcome replies)) := by
  obtain ⟨results, hresults⟩ := Option.isSome_iff_exists.1 (isSome_runAll peers dialogues session)
  rw [hresults, run_eq_outcomes h none _ _ results hresults]
  exact congrArg some (map_inOrder (Dialogue.outcome_proceed h) dialogues session)

end Pool

end AirInquiry
