import AirInquiry.Lookup.Basic
import AirInquiry.Lookup.Results
import AirInquiry.Peer.Pool

/-!
# Carrying out a plan

The inquiries of a phase are looked up side by side. The next phase starts when all of them are
filled in, and sees what has been collected until then; inquiries of one phase do not see each
other's results. With a deadline the plan is given up as a whole when lookups are still waiting
then.
-/

set_option autoImplicit false
set_option relaxedAutoImplicit false

namespace AirInquiry.Lookup

variable {σ : Type}

/-- Collected results with those of all inquiries of a phase in order. -/
def collect (collected : Json.Entries) (phase : Phase) : Json.Entries :=
  phase.inquiries.foldl (fun collected item ↦ merge collected item.data) collected

/-- Looks up all inquiries of a phase side by side, unless the deadline comes first. -/
def carryOutPhase (peers : Peers σ) (setting : Setting) (deadline : Option Nat)
    (prior : Json.Entries) (phase : Phase) (session : Session σ) : Option Phase × Session σ :=
  let (filled, session) :=
    Pool.runAll peers deadline (phase.inquiries.map (fill setting prior)) session
  (filled.map Phase.mk, session)

theorem isSome_carryOutPhase (peers : Peers σ) (setting : Setting) (prior : Json.Entries)
    (phase : Phase) (session : Session σ) :
    (carryOutPhase peers setting none prior phase session).1.isSome := by
  simp only [carryOutPhase, Option.isSome_map]
  exact Pool.isSome_runAll peers _ session

/-- Looks up all inquiries of a phase side by side, however long it takes. -/
def completePhase (peers : Peers σ) (setting : Setting) (prior : Json.Entries) (phase : Phase)
    (session : Session σ) : Phase × Session σ :=
  let outcome := carryOutPhase peers setting none prior phase session
  (outcome.1.get (isSome_carryOutPhase peers setting prior phase session), outcome.2)

/-- How far a plan has been carried out. -/
structure Progress where
  plan : Plan
  counter : PhaseCounter
  data : Json.Entries := []
  phasesDone : Nat := 0

namespace Progress

/-- The start of a plan. -/
def start (plan : Plan) : Progress := { plan, counter := PhaseCounter.start plan }

/-- The progress after the phase at the counter, which has been filled in. -/
def record (progress : Progress) (phase : Phase) : Progress where
  plan := progress.plan.setPhase progress.counter.index phase
  counter := progress.counter.next
  data := collect progress.data phase
  phasesDone := progress.phasesDone + 1

/-- The progress after a number that has no phase. -/
def skip (progress : Progress) : Progress :=
  { progress with counter := progress.counter.next }

/-- Carries out the phases from the counter on, unless the deadline comes first. -/
def run (peers : Peers σ) (setting : Setting) (deadline : Option Nat) (progress : Progress)
    (session : Session σ) : Option Progress × Session σ :=
  if progress.counter.isFinished then (some progress, session)
  else
    match progress.plan.phase? progress.counter.index with
    | none => progress.skip.run peers setting deadline session
    | some phase =>
      match carryOutPhase peers setting deadline progress.data phase session with
      | (none, session) => (none, session)
      | (some filled, session) => (progress.record filled).run peers setting deadline session
termination_by progress.counter.count + 1 - progress.counter.index
decreasing_by
  all_goals
    simp only [skip, record, PhaseCounter.next, PhaseCounter.isFinished, decide_eq_true_eq] at *
    omega

theorem isSome_run (peers : Peers σ) (setting : Setting) (progress : Progress)
    (session : Session σ) : (progress.run peers setting none session).1.isSome := by
  fun_induction run peers setting none progress session with
  | case1 => rfl
  | case2 _ _ _ _ ih => exact ih
  | case3 progress session _ phase _ after hrun =>
    have hsome := isSome_carryOutPhase peers setting progress.data phase session
    rw [hrun] at hsome
    exact absurd hsome (by simp)
  | case4 _ _ _ _ _ _ _ _ ih => exact ih

end Progress

/-- Carries out a plan, unless the deadline comes first. -/
def carryOutPlan (peers : Peers σ) (setting : Setting) (deadline : Option Nat) (plan : Plan)
    (session : Session σ) : Option Progress × Session σ :=
  (Progress.start plan).run peers setting deadline session

/-- Carries out a plan, however long it takes. -/
def completePlan (peers : Peers σ) (setting : Setting) (plan : Plan) (session : Session σ) :
    Progress × Session σ :=
  let outcome := carryOutPlan peers setting none plan session
  (outcome.1.get (Progress.isSome_run peers setting (Progress.start plan) session), outcome.2)

end AirInquiry.Lookup
