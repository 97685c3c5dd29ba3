import AirInquiry.Proofs.Lookup.Reports
import AirInquiry.Proofs.Peer.Deadline

/-!
# Time limits

A plan is carried out in time or given up as a whole. Next to the plan carried out however long it
takes, the plan with a deadline is the same run if that one ends by the deadline, and otherwise the
calls that it makes until the deadline, with no progress to show for them
(`Lookup.Progress.run_isCutAt`).

So the answer to a question within a time limit is either the answer without one
(`Responder.answerInFull`) or the report that time ran out, and then nothing else is asked: no call
asks for the wording of an answer (`Responder.answer_inFull_or_late`). Some limit is always long
enough (`Responder.exists_not_timesOut`), and a longer one changes nothing.
-/

set_option autoImplicit false
set_option relaxedAutoImplicit false

namespace AirInquiry

open Session (GoesOn OnlyAdds)

variable {σ : Type}

/-! ### Plans with a deadline -/

namespace Lookup

variable {setting : Setting}

theorem carryOutPhase_goesOn (peers : Peers σ) (setting : Setting) (deadline : Option Nat)
    (prior : Json.Entries) (phase : Phase) (session : Session σ) :
    GoesOn session (carryOutPhase peers setting deadline prior phase session).2 :=
  Pool.runAll_goesOn peers deadline _ session

theorem carryOutPhase_isCutAt (peers : Peers σ) (setting : Setting) {limit : Nat}
    (prior : Json.Entries) (phase : Phase) (session : Session σ) (hlimit : session.clock ≤ limit) :
    IsCutAt limit (carryOutPhase peers setting none prior phase session)
      (carryOutPhase peers setting (some limit) prior phase session) :=
  (Pool.runAll_isCutAt peers _ session hlimit).map Phase.mk

namespace Progress

theorem run_goesOn (peers : Peers σ) (setting : Setting) (deadline : Option Nat)
    (progress : Progress) (session : Session σ) :
    GoesOn session (progress.run peers setting deadline session).2 := by
  fun_induction run peers setting deadline progress session with
  | case1 => exact .refl _
  | case2 _ _ _ _ ih => exact ih
  | case3 progress session _ phase _ after hrun =>
    have hphase := carryOutPhase_goesOn peers setting deadline progress.data phase session
    rwa [hrun] at hphase
  | case4 progress session _ phase _ filled after hrun ih =>
    have hphase := carryOutPhase_goesOn peers setting deadline progress.data phase session
    rw [hrun] at hphase
    exact hphase.trans ih

/-- Assumes that the deadline has not passed. By induction on the phases that are left: the phase
in which the whole run comes to the deadline is the one that is given up. -/
theorem run_isCutAt (peers : Peers σ) (setting : Setting) {limit : Nat} (progress : Progress)
    (session : Session σ) (hlimit : session.clock ≤ limit) :
    IsCutAt limit (progress.run peers setting none session)
      (progress.run peers setting (some limit) session) := by
  fun_induction run peers setting none progress session with
  | case1 progress session hfinished =>
    rw [run_of_isFinished peers hfinished]
    exact .refl hlimit
  | case2 progress session hopen hnone ih =>
    rw [run_of_phase?_eq_none peers hopen hnone]
    exact ih hlimit
  | case3 progress session _ phase _ after hrun =>
    have hsome := isSome_carryOutPhase peers setting progress.data phase session
    rw [hrun] at hsome
    cases hsome
  | case4 progress session hopen phase hphase filled after hrun ih =>
    have hcut := carryOutPhase_isCutAt peers setting progress.data phase session hlimit
    rw [hrun] at hcut
    rw [run_of_phase?_eq_some peers hopen hphase]
    rcases Nat.lt_or_ge limit after.clock with hlate | htime
    · have hrest := run_goesOn peers setting none (progress.record filled) after
      obtain ⟨hnone, hclock, hcalls⟩ := hcut.late hlate
      dsimp only
      rw [hnone]
      exact ⟨fun hend ↦ absurd (Nat.le_trans hrest.clock hend) (Nat.not_le.2 hlate),
        fun _ ↦ ⟨rfl, hclock, hcalls.trans hrest.calls⟩⟩
    · rw [hcut.inTime htime]
      exact ih htime

end Progress

/-- Without a deadline a plan is carried out to its end. -/
theorem carryOutPlan_none (peers : Peers σ) (setting : Setting) (plan : Plan)
    (session : Session σ) :
    carryOutPlan peers setting none plan session =
      (some (completePlan peers setting plan session).1,
        (completePlan peers setting plan session).2) :=
  Prod.ext (Option.some_get _).symm rfl

theorem carryOutPlan_isCutAt (peers : Peers σ) (setting : Setting) {limit : Nat} (plan : Plan)
    (session : Session σ) (hlimit : session.clock ≤ limit) :
    IsCutAt limit (some (completePlan peers setting plan session).1,
        (completePlan peers setting plan session).2)
      (carryOutPlan peers setting (some limit) plan session) := by
  rw [← carryOutPlan_none]
  exact Progress.run_isCutAt peers setting (.start plan) session hlimit

/-- A plan is given up if no lookup of its first phase has had its first reply by the deadline. -/
theorem carryOutPlan_of_late (peers : Peers σ) {plan : Plan} {session : Session σ} {limit due : Nat}
    (hdue : (Pool.start peers (plan.first.inquiries.map (fill setting [])) session).1.earliest? =
      some due) (hlate : limit < due) :
    (carryOutPlan peers setting (some limit) plan session).1 = none := by
  have hopen : ¬ (Progress.start plan).counter.isFinished = true := by
    have hcount := phaseCount_cases plan
    have hnext : (Progress.start plan).counter.isFinished = decide (plan.phaseCount < 1) := rfl
    rw [hnext, decide_eq_true_eq]
    omega
  have hrun : (carryOutPhase peers setting (some limit) [] plan.first session).1 = none := by
    rw [carryOutPhase, Pool.runAll]
    dsimp only
    rw [Pool.run_of_late peers hdue hlate, Option.map_none]
  have hphase : (Progress.start plan).plan.phase? (Progress.start plan).counter.index =
      some plan.first := rfl
  have hdata : (Progress.start plan).data = [] := rfl
  rw [carryOutPlan, Progress.run_of_phase?_eq_some peers hopen hphase, hdata]
  dsimp only
  rw [hrun]

end Lookup

/-! ### Calls for an answer -/

/-- A call that does not ask for the wording of an answer. -/
def AsksNoAnswer (call : Call) : Prop :=
  ∀ request, call = .complete request → request.target.name ≠ "answer"

theorem asksNoAnswer_post (query : String) : AsksNoAnswer (.post query) := by
  intro request h
  cases h

theorem asksNoAnswer_complete {request : Completion.Request}
    (h : request.target.name ≠ "answer") : AsksNoAnswer (.complete request) := by
  intro other hother
  cases hother
  exact h

theorem Plan.make_asksNoAnswer (catalog : Catalog) (today question : String) :
    (make catalog today question).Ensures AsksNoAnswer fun _ ↦ True := by
  unfold make
  extract_lets trimmed
  split
  · exact .done trivial
  · have hname : "todo_list" ≠ "answer" := by decide
    exact (Dialogue.Ensures.completionAs _ (asksNoAnswer_complete hname)).bind fun _ _ ↦
      .done trivial

namespace Lookup

theorem select_asksNoAnswer (catalog : Catalog) (limit : Nat)
    (question description table : String) :
    (select catalog limit question description table).Ensures AsksNoAnswer fun _ ↦ True := by
  unfold select
  split
  · exact .done trivial
  · refine (Dialogue.Ensures.completion (asksNoAnswer_complete ?_)).bind fun _ _ ↦ .done trivial
    intro hname
    have hlength := congrArg String.length hname
    rw [selectionRequest, Completion.ask, String.length_append] at hlength
    have hending : "_fields".length = 7 := rfl
    have hwhole : "answer".length = 6 := rfl
    omega

theorem find_asksNoAnswer (finder : ConstraintFinder) (question description : String)
    (fields : List FieldChoice) (prior : Json.Entries) :
    (finder.find question description fields prior).Ensures AsksNoAnswer fun _ ↦ True := by
  unfold ConstraintFinder.find
  split
  · exact .done trivial
  split
  · exact .done trivial
  · have hname : "query_constraints" ≠ "answer" := by decide
    exact (Dialogue.Ensures.completionAs _ (asksNoAnswer_complete hname)).bind fun _ _ ↦
      .done trivial

theorem post_asksNoAnswer (query : String) :
    (post query).Ensures AsksNoAnswer fun _ ↦ True := by
  unfold post
  split
  · exact .done trivial
  · exact (Dialogue.Ensures.posting (asksNoAnswer_post query)).bind fun _ _ ↦ .done trivial

theorem fill_asksNoAnswer (setting : Setting) (prior : Json.Entries) (inquiry : Inquiry) :
    (fill setting prior inquiry).Ensures AsksNoAnswer fun _ ↦ True := by
  have hfields : ∀ fields, (lookUpFields setting prior inquiry fields).Ensures AsksNoAnswer
      fun _ ↦ True := by
    intro fields
    refine (find_asksNoAnswer _ _ _ _ _).bind fun constraints _ ↦ ?_
    exact (post_asksNoAnswer _).bind fun findings _ ↦ .done trivial
  have hlookUp : (lookUp setting prior inquiry).Ensures AsksNoAnswer fun _ ↦ True := by
    refine (select_asksNoAnswer _ _ _ _ _).bind fun selection _ ↦ ?_
    cases selection with
    | none => exact .done trivial
    | some fields => exact hfields fields
  exact hlookUp.bind fun outcome _ ↦ .done trivial

end Lookup

/-! ### Answers within a time limit -/

namespace Responder

open Lookup

/-- Answers a question, with no limit on the time that its plan takes. -/
def answerInFull (peers : Peers σ) (responder : Responder) (question : String)
    (session : Session σ) : Report × Session σ :=
  let made := planned peers responder question session
  match made.1 with
  | .error error => (unplanned error, made.2)
  | .ok plan =>
    let after := completePlan peers responder.setting plan made.2
    responder.conclude peers question after.1 after.2

/-- A responder with another time limit. -/
def within (responder : Responder) (limit : Nat) : Responder :=
  { responder with timeLimit := limit }

theorem setting_within (responder : Responder) (limit : Nat) :
    (responder.within limit).setting = responder.setting :=
  rfl

theorem planned_within (peers : Peers σ) (responder : Responder) (limit : Nat) (question : String)
    (session : Session σ) :
    planned peers (responder.within limit) question session =
      planned peers responder question session := by
  rw [planned, setting_within, planned]

theorem answerInFull_within (peers : Peers σ) (responder : Responder) (limit : Nat)
    (question : String) (session : Session σ) :
    (responder.within limit).answerInFull peers question session =
      responder.answerInFull peers question session := by
  unfold answerInFull conclude
  rw [planned_within, setting_within]

/-- There is a plan for the question, and it is given up at the time limit. -/
def TimesOut (peers : Peers σ) (responder : Responder) (question : String)
    (session : Session σ) : Prop :=
  ∃ plan, (planned peers responder question session).1 = .ok plan ∧
    (carried peers responder plan (planned peers responder question session).2).1 = none

variable {peers : Peers σ} {responder : Responder} {question : String} {session : Session σ}
  {plan : Plan}

/-- A plan is given up when it would be done after the deadline, and else it is carried out as
without one. -/
theorem carried_isCutAt (peers : Peers σ) (responder : Responder) (plan : Plan)
    (session : Session σ) :
    IsCutAt (responder.deadline session.clock)
      (some (completePlan peers responder.setting plan session).1,
        (completePlan peers responder.setting plan session).2)
      (carried peers responder plan session) :=
  carryOutPlan_isCutAt peers responder.setting plan session (Nat.le_add_right _ _)

theorem timesOut_iff : TimesOut peers responder question session ↔
    ∃ plan, (planned peers responder question session).1 = .ok plan ∧
      responder.deadline (planned peers responder question session).2.clock <
        (completePlan peers responder.setting plan
          (planned peers responder question session).2).2.clock := by
  refine exists_congr fun plan ↦ and_congr_right fun _ ↦ ?_
  have hcut := carried_isCutAt peers responder plan (planned peers responder question session).2
  constructor
  · intro hnone
    by_contra hlate
    rw [hcut.inTime (Nat.not_lt.1 hlate)] at hnone
    cases hnone
  · intro hlate
    exact (hcut.late hlate).1

theorem deadline_within_le {limit longer : Nat} (h : limit ≤ longer) (now : Nat) :
    (responder.within limit).deadline now ≤ (responder.within longer).deadline now :=
  Nat.add_le_add_left (Nat.div_le_div_right (Nat.add_le_add_right h 999)) now

/-- A limit that is long enough stays so when it is longer. -/
theorem not_timesOut_of_le {limit longer : Nat} (hle : limit ≤ longer)
    (h : ¬ (responder.within limit).TimesOut peers question session) :
    ¬ (responder.within longer).TimesOut peers question session := by
  rw [timesOut_iff] at h ⊢
  rw [planned_within] at h ⊢
  rintro ⟨plan, hplan, hlate⟩
  exact h ⟨plan, hplan, Nat.lt_of_le_of_lt (deadline_within_le hle _) hlate⟩

theorem exists_not_timesOut (peers : Peers σ) (responder : Responder) (question : String)
    (session : Session σ) :
    ∃ enough, ¬ (responder.within enough).TimesOut peers question session := by
  cases hplanned : (planned peers responder question session).1 with
  | error error =>
    refine ⟨0, ?_⟩
    rintro ⟨plan, hplan, -⟩
    rw [planned_within, hplanned] at hplan
    cases hplan
  | ok plan =>
    -- In microseconds: as long as the clock shows at the end.
    refine ⟨1000 * (completePlan peers responder.setting plan
      (planned peers responder question session).2).2.clock, ?_⟩
    rw [timesOut_iff]
    rintro ⟨other, hother, hlate⟩
    rw [planned_within] at hother hlate
    rw [hplanned] at hother
    cases hother
    refine absurd hlate (Nat.not_lt.2 (Nat.le_add_left_of_le ?_))
    rw [Nat.le_div_iff_mul_le (by decide), Nat.mul_comm]
    exact Nat.le_add_right _ 999

theorem answer_of_not_timesOut (h : ¬ TimesOut peers responder question session) :
    responder.answer peers question session = responder.answerInFull peers question session := by
  rw [answer_eq, answerInFull]
  cases hplanned : (planned peers responder question session).1 with
  | error error => rfl
  | ok plan =>
    rw [timesOut_iff] at h
    have htime := Nat.not_lt.1 fun hlate ↦ h ⟨plan, hplanned, hlate⟩
    have hcut := carried_isCutAt peers responder plan (planned peers responder question session).2
    dsimp only
    rw [hcut.inTime htime]

/-- Neither planning nor carrying out a plan asks for the wording of an answer. -/
theorem carried_onlyAdds (peers : Peers σ) (responder : Responder) (question : String)
    (session : Session σ) (plan : Plan) :
    OnlyAdds AsksNoAnswer session
      (carried peers responder plan (planned peers responder question session).2).2 := by
  have hplanned := ((Plan.make_asksNoAnswer responder.setting.catalog
    responder.setting.finder.today question).run peers session).2
  have hcarried := Progress.run_onlyAdds peers
    (some (responder.deadline (planned peers responder question session).2.clock))
    (fill_asksNoAnswer responder.setting) (.start plan)
    (planned peers responder question session).2
  exact hplanned.trans hcarried

/-- What is left of a question when time runs out: the report says so, the clock stands at the
deadline, the calls are the first ones of the plan carried out in full, and none of them asks for
the wording of an answer. -/
structure IsGivenUp (peers : Peers σ) (responder : Responder) (question : String)
    (session : Session σ) (plan : Plan) (report : Report) (after : Session σ) : Prop where
  planned_eq : (planned peers responder question session).1 = .ok plan
  report_eq : report =
    { answer := lateAnswer, data := [], queries := [],
      errors := ["request timed out after " ++ Text.duration (responder.timeLimit * 1000)] }
  clock_eq : after.clock = responder.deadline (planned peers responder question session).2.clock
  calls : after.calls <+: (completePlan peers responder.setting plan
    (planned peers responder question session).2).2.calls
  asksNoAnswer : OnlyAdds AsksNoAnswer session after

theorem TimesOut.exists_isGivenUp (h : TimesOut peers responder question session) :
    ∃ plan, IsGivenUp peers responder question session plan
      (responder.answer peers question session).1 (responder.answer peers question session).2 := by
  obtain ⟨plan, hplan, hlate⟩ := timesOut_iff.1 h
  obtain ⟨hnone, hclock, hcalls⟩ := (carried_isCutAt peers responder plan
    (planned peers responder question session).2).late hlate
  rw [answer_of_late hplan hnone]
  exact ⟨plan, hplan, rfl, hclock, hcalls, carried_onlyAdds peers responder question session plan⟩

/-- Whatever the peers do and however long they take, the answer within a time limit is the answer
without one, or else the report that time ran out, behind no other calls than those for the plan. A
question that is answered within a limit has the same answer within every longer one. -/
theorem answer_inFull_or_late (peers : Peers σ) (responder : Responder) (question : String)
    (session : Session σ) (limit : Nat) :
    (¬ (responder.within limit).TimesOut peers question session ∧
        (responder.within limit).answer peers question session =
          responder.answerInFull peers question session ∨
      (responder.within limit).TimesOut peers question session ∧
        ∃ plan, IsGivenUp peers (responder.within limit) question session plan
          ((responder.within limit).answer peers question session).1
          ((responder.within limit).answer peers question session).2) ∧
    ∀ longer, limit ≤ longer → ¬ (responder.within limit).TimesOut peers question session →
      ¬ (responder.within longer).TimesOut peers question session ∧
        (responder.within longer).answer peers question session =
          (responder.within limit).answer peers question session := by
  refine ⟨?_, fun longer hle htime ↦ ?_⟩
  · by_cases htimesOut : (responder.within limit).TimesOut peers question session
    · exact .inr ⟨htimesOut, htimesOut.exists_isGivenUp⟩
    · refine .inl ⟨htimesOut, ?_⟩
      rw [answer_of_not_timesOut htimesOut, answerInFull_within]
  · have hlonger := not_timesOut_of_le hle htime
    refine ⟨hlonger, ?_⟩
    rw [answer_of_not_timesOut hlonger, answer_of_not_timesOut htime, answerInFull_within,
      answerInFull_within]

/-- The same replies as those of `plannedPeers`, each after twenty milliseconds. -/
def slowPeers : Peers Nat := plannedReplies.delayed fun _ ↦ 20

theorem timesOut_slowPeers :
    (Responder.within ⟨modelSetting, 0⟩ 10000).TimesOut slowPeers "provinces" ⟨0, 0, []⟩ := by
  have hmade : ((planned slowPeers ⟨modelSetting, 0⟩ "provinces" ⟨0, 0, []⟩).1.toOption.any
      fun plan ↦ (Pool.start slowPeers (plan.first.inquiries.map (fill modelSetting []))
        (planned slowPeers ⟨modelSetting, 0⟩ "provinces" ⟨0, 0, []⟩).2).1.earliest? = some 40) =
      true := by decide +kernel
  have hclock : (planned slowPeers ⟨modelSetting, 0⟩ "provinces" ⟨0, 0, []⟩).2.clock = 20 := by
    decide +kernel
  rw [TimesOut, planned_within]
  revert hmade hclock
  generalize planned slowPeers ⟨modelSetting, 0⟩ "provinces" ⟨0, 0, []⟩ = made
  obtain ⟨result, session⟩ := made
  intro hmade hclock
  cases result with
  | error error => cases hmade
  | ok plan =>
    have hdue := of_decide_eq_true hmade
    have hlate : (Responder.within ⟨modelSetting, 0⟩ 10000).deadline session.clock < 40 := by
      rw [hclock]
      decide
    exact ⟨plan, rfl, carryOutPlan_of_late slowPeers hdue hlate⟩

/-- Twenty milliseconds for each reply are too long for a limit of ten, and some limit is long
enough for the provinces. -/
theorem answer_inFull_or_late_provinces :
    (answer slowPeers ⟨modelSetting, 10000⟩ "provinces" ⟨0, 0, []⟩).1.errors =
      ["request timed out after 10ms"] ∧
    ∃ enough, ¬ TimesOut slowPeers ⟨modelSetting, enough⟩ "provinces" ⟨0, 0, []⟩ ∧
      answer slowPeers ⟨modelSetting, enough⟩ "provinces" ⟨0, 0, []⟩ =
        answerInFull slowPeers ⟨modelSetting, 0⟩ "provinces" ⟨0, 0, []⟩ ∧
      answer slowPeers ⟨modelSetting, enough + 1⟩ "provinces" ⟨0, 0, []⟩ =
        answer slowPeers ⟨modelSetting, enough⟩ "provinces" ⟨0, 0, []⟩ := by
  constructor
  · rcases (answer_inFull_or_late slowPeers ⟨modelSetting, 0⟩ "provinces" ⟨0, 0, []⟩ 10000).1 with
      ⟨htime, -⟩ | ⟨-, plan, hgivenUp⟩
    · exact absurd timesOut_slowPeers htime
    · have hreport := hgivenUp.report_eq
      have herrors := congrArg Report.errors hreport
      exact herrors.trans (by decide +kernel)
  · obtain ⟨enough, htime⟩ := exists_not_timesOut slowPeers ⟨modelSetting, 0⟩ "provinces" ⟨0, 0, []⟩
    obtain ⟨hanswer, hlonger⟩ :=
      answer_inFull_or_late slowPeers ⟨modelSetting, 0⟩ "provinces" ⟨0, 0, []⟩ enough
    obtain ⟨-, hinFull⟩ := hanswer.resolve_right fun hlate ↦ htime hlate.1
    exact ⟨enough, htime, hinFull, (hlonger (enough + 1) (Nat.le_succ enough) htime).2⟩

end Responder

end AirInquiry
