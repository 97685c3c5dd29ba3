import AirInquiry.Peer.Pool
import Mathlib.Tactic.Common

/-!
# The calls that a dialogue may make

`Dialogue.Ensures` says of a dialogue that on every course it may take, whatever the replies are, it
makes only allowed calls and ends in an expected result. It goes through one dialogue after another
(`Ensures.bind`).

Whatever the peers do, carrying out such a dialogue adds only allowed calls to a session. This holds
of a dialogue run by itself (`Ensures.run`) and of dialogues run side by side, with or without a
deadline (`Pool.runAll_onlyAdds`).
-/

set_option autoImplicit false
set_option relaxedAutoImplicit false

namespace AirInquiry

variable {α β σ : Type} {allowed : Call → Prop} {expected : α → Prop}

namespace Dialogue

/-- On every course, the dialogue makes only allowed calls and ends in an expected result. -/
inductive Ensures (allowed : Call → Prop) (expected : α → Prop) : Dialogue α → Prop where
  | done {result : α} (h : expected result) : Ensures allowed expected (.done result)
  | complete {request : Completion.Request} {next : Completion.Reply → Dialogue α}
      (hcall : allowed (.complete request))
      (hnext : ∀ reply, Ensures allowed expected (next reply)) :
      Ensures allowed expected (.complete request next)
  | post {query : String} {next : Transport.Reply → Dialogue α} (hcall : allowed (.post query))
      (hnext : ∀ reply, Ensures allowed expected (next reply)) :
      Ensures allowed expected (.post query next)

theorem Ensures.mono {more : Call → Prop} {weaker : α → Prop} {dialogue : Dialogue α}
    (h : dialogue.Ensures allowed expected) (hmore : ∀ call, allowed call → more call)
    (hweaker : ∀ result, expected result → weaker result) : dialogue.Ensures more weaker := by
  induction h with
  | done h => exact .done (hweaker _ h)
  | complete hcall _ ih => exact .complete (hmore _ hcall) ih
  | post hcall _ ih => exact .post (hmore _ hcall) ih

theorem Ensures.completion {request : Completion.Request} (h : allowed (.complete request)) :
    (completion request).Ensures allowed fun _ ↦ True :=
  .complete h fun _ ↦ .done trivial

theorem Ensures.completionAs (read : Json → Except Json.Mismatch α) {request : Completion.Request}
    (h : allowed (.complete request)) :
    (completionAs read request).Ensures allowed fun _ ↦ True :=
  .complete h fun _ ↦ .done trivial

theorem Ensures.posting {query : String} (h : allowed (.post query)) :
    (posting query).Ensures allowed fun _ ↦ True :=
  .post h fun _ ↦ .done trivial

/-- Assumes that the second dialogue ensures its part from every expected result of the first. -/
theorem Ensures.bind {final : β → Prop} {first : Dialogue α} {second : α → Dialogue β}
    (hfirst : first.Ensures allowed expected)
    (hsecond : ∀ result, expected result → (second result).Ensures allowed final) :
    (first >>= second).Ensures allowed final := by
  induction hfirst with
  | done h => exact hsecond _ h
  | complete hcall _ ih => exact .complete hcall ih
  | post hcall _ ih => exact .post hcall ih

end Dialogue

/-! ### Sessions -/

namespace Session

/-- From one session to a later one, only allowed calls are added behind the calls made so far. -/
def OnlyAdds (allowed : Call → Prop) (before after : Session σ) : Prop :=
  ∃ added, after.calls = before.calls ++ added ∧ ∀ call ∈ added, allowed call

theorem OnlyAdds.of_calls_eq {before after : Session σ} (h : after.calls = before.calls) :
    OnlyAdds allowed before after :=
  ⟨[], by simp [h], by simp⟩

theorem OnlyAdds.trans {first second third : Session σ} (hfirst : OnlyAdds allowed first second)
    (hsecond : OnlyAdds allowed second third) : OnlyAdds allowed first third := by
  obtain ⟨early, hearly, hallowed⟩ := hfirst
  obtain ⟨late, hlate, hlater⟩ := hsecond
  refine ⟨early ++ late, by rw [hlate, hearly, List.append_assoc], fun call hcall ↦ ?_⟩
  rcases List.mem_append.1 hcall with hcall | hcall
  · exact hallowed call hcall
  · exact hlater call hcall

theorem OnlyAdds.of_call {before after : Session σ} {call : Call}
    (h : after.calls = before.calls ++ [call]) (hcall : allowed call) :
    OnlyAdds allowed before after :=
  ⟨[call], h, by simpa using hcall⟩

theorem complete_onlyAdds (peers : Peers σ) {request : Completion.Request} (session : Session σ)
    (h : allowed (.complete request)) :
    OnlyAdds allowed session (session.complete peers request).2 :=
  OnlyAdds.of_call rfl h

theorem post_onlyAdds (peers : Peers σ) {query : String} (session : Session σ)
    (h : allowed (.post query)) : OnlyAdds allowed session (session.post peers query).2 :=
  OnlyAdds.of_call rfl h

/-- A call of the later session is one of the earlier session or an allowed one. -/
theorem OnlyAdds.mem_or {before after : Session σ} (h : OnlyAdds allowed before after) {call : Call}
    (hcall : call ∈ after.calls) : call ∈ before.calls ∨ allowed call := by
  obtain ⟨added, hadded, hallowed⟩ := h
  rw [hadded, List.mem_append] at hcall
  exact hcall.imp_right (hallowed call)

end Session

open Session (OnlyAdds)

/-! ### Carrying out dialogues -/

namespace Dialogue

/-- Carrying out a dialogue by itself adds its calls and ends in an expected result. -/
theorem Ensures.run (peers : Peers σ) {dialogue : Dialogue α}
    (h : dialogue.Ensures allowed expected) (session : Session σ) :
    expected (dialogue.run peers session).1 ∧
      OnlyAdds allowed session (dialogue.run peers session).2 := by
  induction h generalizing session with
  | done h => exact ⟨h, .of_calls_eq rfl⟩
  | @complete request next hcall _ ih =>
    obtain ⟨hresult, hadds⟩ := ih _ ((session.complete peers request).2.wait
      (session.complete peers request).1.delay)
    have hcomplete := Session.complete_onlyAdds peers session hcall
    exact ⟨hresult, (hcomplete.trans (.of_calls_eq rfl)).trans hadds⟩
  | @post query next hcall _ ih =>
    obtain ⟨hresult, hadds⟩ := ih _ ((session.post peers query).2.wait
      (session.post peers query).1.delay)
    have hpost := Session.post_onlyAdds peers session hcall
    exact ⟨hresult, (hpost.trans (.of_calls_eq rfl)).trans hadds⟩

end Dialogue

/-- What has become of a dialogue that ensures its calls and its result. -/
def Place.Ensures (allowed : Call → Prop) (expected : α → Prop) : Place α → Prop
  | .finished result => expected result
  | .waiting _ rest => rest.Ensures allowed expected

theorem Dialogue.Ensures.proceed (peers : Peers σ) {dialogue : Dialogue α}
    (h : dialogue.Ensures allowed expected) (session : Session σ) :
    (dialogue.proceed peers session).1.Ensures allowed expected ∧
      OnlyAdds allowed session (dialogue.proceed peers session).2 := by
  induction h generalizing session with
  | done h => exact ⟨h, .of_calls_eq rfl⟩
  | @complete request next hcall hnext ih =>
    have hcomplete := Session.complete_onlyAdds peers session hcall
    simp only [Dialogue.proceed]
    split
    · obtain ⟨hplace, hadds⟩ := ih _ (session.complete peers request).2
      exact ⟨hplace, hcomplete.trans hadds⟩
    · exact ⟨hnext _, hcomplete⟩
  | @post query next hcall hnext ih =>
    have hpost := Session.post_onlyAdds peers session hcall
    simp only [Dialogue.proceed]
    split
    · obtain ⟨hplace, hadds⟩ := ih _ (session.post peers query).2
      exact ⟨hplace, hpost.trans hadds⟩
    · exact ⟨hnext _, hpost⟩

namespace Pool

/-- Assumes that the step for every item has a good result and adds only allowed calls. -/
theorem inOrder_onlyAdds {good : β → Prop} (step : α → Session σ → β × Session σ) {items : List α}
    (h : ∀ item ∈ items, ∀ session, good (step item session).1 ∧
      OnlyAdds allowed session (step item session).2) (session : Session σ) :
    (∀ result ∈ (inOrder step items session).1, good result) ∧
      OnlyAdds allowed session (inOrder step items session).2 := by
  induction items generalizing session with
  | nil => exact ⟨by simp [inOrder], .of_calls_eq rfl⟩
  | cons item rest ih =>
    obtain ⟨hfirst, hadds⟩ := h item (by simp) session
    obtain ⟨hothers, hmore⟩ := ih (fun other hother ↦ h other (by simp [hother]))
      (step item session).2
    refine ⟨fun result hresult ↦ ?_, hadds.trans hmore⟩
    simp only [inOrder, List.mem_cons] at hresult
    rcases hresult with rfl | hresult
    · exact hfirst
    · exact hothers result hresult

theorem wakePlace_onlyAdds (peers : Peers σ) (now : Nat) {place : Place α}
    (h : place.Ensures allowed expected) (session : Session σ) :
    (wakePlace peers now place session).1.Ensures allowed expected ∧
      OnlyAdds allowed session (wakePlace peers now place session).2 := by
  cases place with
  | finished result => exact ⟨h, .of_calls_eq rfl⟩
  | waiting due rest =>
    simp only [wakePlace]
    split
    · exact Dialogue.Ensures.proceed peers h session
    · exact ⟨h, .of_calls_eq rfl⟩

theorem run_onlyAdds (peers : Peers σ) (deadline : Option Nat) {pool : Pool α}
    (h : ∀ place ∈ pool.places, place.Ensures allowed expected) (session : Session σ) :
    OnlyAdds allowed session (pool.run peers deadline session).2 := by
  fun_induction run peers deadline pool session with
  | case1 => exact .of_calls_eq rfl
  | case2 => exact .of_calls_eq rfl
  | case3 pool session due _ _ next ih =>
    have hwake := inOrder_onlyAdds (wakePlace peers due)
      (fun place hplace session ↦ wakePlace_onlyAdds peers due (h place hplace) session)
      { session with clock := due }
    have hclock : OnlyAdds allowed session { session with clock := due } := .of_calls_eq rfl
    exact (hclock.trans hwake.2).trans (ih hwake.1)

/-- Assumes that every dialogue ensures its calls. -/
theorem runAll_onlyAdds (peers : Peers σ) (deadline : Option Nat) {dialogues : List (Dialogue α)}
    (h : ∀ dialogue ∈ dialogues, dialogue.Ensures allowed expected) (session : Session σ) :
    OnlyAdds allowed session (runAll peers deadline dialogues session).2 := by
  have hstart := inOrder_onlyAdds (Dialogue.proceed peers)
    (fun dialogue hdialogue session ↦ (h dialogue hdialogue).proceed peers session) session
  exact hstart.2.trans (run_onlyAdds peers deadline hstart.1 _)

end Pool

end AirInquiry
