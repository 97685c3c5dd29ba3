import AirInquiry.Proofs.Peer.Turns
import AirInquiry.Responder

/-!
# What posts nothing

Of all that is done for a question, only the last step of a lookup posts. Planning, selecting
fields, finding constraints and wording the answer only ask the language model, and a lookup posts
its query once, because a query that is built is never blank (`post_build`). Whatever the calls of
all lookups keep to, the calls for a whole plan keep to as well (`Progress.run_onlyAdds`).
-/

set_option autoImplicit false
set_option relaxedAutoImplicit false

namespace AirInquiry

/-- A call that posts nothing. -/
def PostsNothing (call : Call) : Prop := call.query? = none

theorem postsNothing_complete (request : Completion.Request) : PostsNothing (.complete request) :=
  rfl

theorem PostsNothing.ne_post {call : Call} (h : PostsNothing call) (query : String) :
    call ≠ .post query := by
  rintro rfl
  cases h

theorem Session.OnlyAdds.exists_queries_eq_nil {σ : Type} {before after : Session σ}
    (h : OnlyAdds PostsNothing before after) :
    ∃ added, after.calls = before.calls ++ added ∧ Call.queries added = [] := by
  obtain ⟨added, hadded, hnothing⟩ := h
  exact ⟨added, hadded, Call.queries_eq_nil hnothing⟩

theorem Plan.make_postsNothing (catalog : Catalog) (today question : String) :
    (make catalog today question).Ensures PostsNothing fun _ ↦ True := by
  unfold make
  extract_lets trimmed
  split
  · exact .done trivial
  · exact (Dialogue.Ensures.completionAs _ (postsNothing_complete _)).bind fun _ _ ↦
      .done trivial

theorem Answer.compose_postsNothing (limit : Nat) (question : String) (data : Json.Entries)
    (queries failures : List String) :
    (compose limit question data queries failures).Ensures PostsNothing fun _ ↦ True :=
  (Dialogue.Ensures.completionAs _ (postsNothing_complete _)).bind fun _ _ ↦ .done trivial

namespace Lookup

theorem select_postsNothing (catalog : Catalog) (limit : Nat)
    (question description table : String) :
    (select catalog limit question description table).Ensures PostsNothing fun _ ↦ True := by
  unfold select
  split
  · exact .done trivial
  · exact (Dialogue.Ensures.completion (postsNothing_complete _)).bind fun _ _ ↦ .done trivial

theorem find_postsNothing (finder : ConstraintFinder) (question description : String)
    (fields : List FieldChoice) (prior : Json.Entries) :
    (finder.find question description fields prior).Ensures PostsNothing fun _ ↦ True := by
  unfold ConstraintFinder.find
  split
  · exact .done trivial
  split
  · exact .done trivial
  · exact (Dialogue.Ensures.completionAs _ (postsNothing_complete _)).bind fun _ _ ↦
      .done trivial

theorem isBlankText_query (query : GraphQL.Query) : Text.isBlankText query.text = false := by
  have hchars : query.text.toList = 'q' :: query.textChars.tail := by
    rw [GraphQL.Query.text, String.toList_ofList]
    rfl
  have hfirst : Text.isBlank 'q' = false := by decide
  rw [Text.isBlankText, hchars, List.all_cons, hfirst, Bool.false_and]

/-- A query that is built is posted once, and brings what the reply brings. -/
theorem post_build (query : GraphQL.Query) :
    post query.text = .post query.text fun reply ↦ .done (findingsOf reply) := by
  rw [post, isBlankText_query]
  rfl

/-! ### Whole plans -/

section Carrying

open Session (OnlyAdds)

variable {σ : Type} {allowed : Call → Prop} {setting : Setting}

/-- Assumes that the lookups of all inquiries make only allowed calls. -/
theorem Progress.run_onlyAdds (peers : Peers σ) (deadline : Option Nat)
    (h : ∀ prior inquiry, (fill setting prior inquiry).Ensures allowed fun _ ↦ True)
    (progress : Progress) (session : Session σ) :
    OnlyAdds allowed session (progress.run peers setting deadline session).2 := by
  have hphase : ∀ prior phase (session : Session σ), OnlyAdds allowed session
      (carryOutPhase peers setting deadline prior phase session).2 := by
    intro prior phase session
    have hfill : ∀ dialogue ∈ phase.inquiries.map (fill setting prior),
        dialogue.Ensures allowed fun _ ↦ True := by
      intro dialogue hdialogue
      obtain ⟨inquiry, -, rfl⟩ := List.mem_map.1 hdialogue
      exact h prior inquiry
    exact Pool.runAll_onlyAdds peers deadline hfill session
  fun_induction Progress.run peers setting deadline progress session with
  | case1 => exact .of_calls_eq rfl
  | case2 _ _ _ _ ih => exact ih
  | case3 progress session _ phase _ after hrun =>
    have hadds := hphase progress.data phase session
    rwa [hrun] at hadds
  | case4 progress session _ phase _ filled after hrun ih =>
    have hadds := hphase progress.data phase session
    rw [hrun] at hadds
    exact hadds.trans ih

end Carrying

end Lookup

end AirInquiry
