import AirInquiry.Catalog.AirQuality
import AirInquiry.Lookup.Progress
import AirInquiry.Proofs.Peer.Interleaving

/-!
# Plans in any order

A plan is carried out in steps (`Stage.Step`): a phase begins with the strands of its lookups, the
strands move in any order, and when all of them are finished the phase is recorded and the next one
may begin. `sequential` looks up one inquiry after another instead: those of the first phase without
earlier results, those of the second phase with what the first one has brought.

Every way of carrying out a plan ends, and it ends where the sequential one does
(`interleaved_eq_sequential`). The invariant is where a stage leads to when all that is left is done
one by one (`Stage.ending`); it is the same before and after every step.
-/

set_option autoImplicit false
set_option relaxedAutoImplicit false

namespace AirInquiry.Lookup

variable {σ : Type} {replies : Replies} {setting : Setting} {plan : Plan}

/-! ### One by one -/

/-- An inquiry after its lookup alone. -/
def fillAlone (replies : Replies) (setting : Setting) (prior : Json.Entries) (inquiry : Inquiry) :
    Inquiry :=
  ((lookUp setting prior inquiry).outcome replies).fillIn inquiry

/-- A phase after the lookups of its inquiries, each alone. -/
def fillEach (replies : Replies) (setting : Setting) (prior : Json.Entries) (phase : Phase) :
    Phase :=
  ⟨phase.inquiries.map (fillAlone replies setting prior)⟩

/-- A plan after the lookups of its inquiries one after another. -/
def sequential (replies : Replies) (setting : Setting) (plan : Plan) : Progress :=
  let first := fillEach replies setting [] plan.first
  let prior := collect [] first
  match plan.presentSecond with
  | none => ⟨{ plan with first }, ⟨2, 1⟩, prior, 1⟩
  | some phase =>
    let second := fillEach replies setting prior phase
    ⟨⟨first, some second⟩, ⟨3, 2⟩, collect prior second, 2⟩

theorem isFinished_sequential (plan : Plan) :
    (sequential replies setting plan).counter.isFinished = true := by
  unfold sequential
  cases plan.presentSecond <;> rfl

/-- The end of a plan when the inquiries of the phases from the counter on are looked up alone. -/
def Progress.finish (replies : Replies) (setting : Setting) (progress : Progress) : Progress :=
  if progress.counter.isFinished then progress
  else
    match progress.plan.phase? progress.counter.index with
    | none => progress.skip.finish replies setting
    | some phase =>
      (progress.record (fillEach replies setting progress.data phase)).finish replies setting
termination_by progress.counter.count + 1 - progress.counter.index
decreasing_by
  all_goals
    simp only [skip, record, PhaseCounter.next, PhaseCounter.isFinished, decide_eq_true_eq] at *
    omega

theorem outcome_fill (prior : Json.Entries) (inquiry : Inquiry) :
    (fill setting prior inquiry).outcome replies = fillAlone replies setting prior inquiry := by
  rw [fill, Dialogue.outcome_bind]
  rfl

theorem outcomes_fill (prior : Json.Entries) (phase : Phase) :
    (phase.inquiries.map (fill setting prior)).map (Dialogue.outcome replies) =
      (fillEach replies setting prior phase).inquiries := by
  rw [List.map_map]
  exact List.map_congr_left fun inquiry _ ↦ outcome_fill prior inquiry

namespace Progress

variable {progress : Progress}

theorem finish_of_isFinished (h : progress.counter.isFinished = true) :
    progress.finish replies setting = progress := by
  rw [finish, if_pos h]

theorem finish_of_phase?_eq_none (h : progress.counter.isFinished = false)
    (hphase : progress.plan.phase? progress.counter.index = none) :
    progress.finish replies setting = progress.skip.finish replies setting := by
  rw [finish, if_neg (by simp [h]), hphase]

theorem finish_of_phase?_eq_some {phase : Phase} (h : progress.counter.isFinished = false)
    (hphase : progress.plan.phase? progress.counter.index = some phase) :
    progress.finish replies setting =
      (progress.record (fillEach replies setting progress.data phase)).finish replies setting := by
  rw [finish, if_neg (by simp [h]), hphase]

theorem finish_start (plan : Plan) :
    (start plan).finish replies setting = sequential replies setting plan := by
  have hopen : (start plan).counter.isFinished = false := by
    simp only [start, PhaseCounter.start, PhaseCounter.isFinished, Plan.phaseCount]
    split <;> rfl
  rw [finish_of_phase?_eq_some hopen rfl]
  let first := fillEach replies setting [] plan.first
  change finish replies setting
    ⟨{ plan with first }, ⟨2, plan.phaseCount⟩, collect [] first, 1⟩ = _
  unfold sequential Plan.phaseCount
  cases hsecond : plan.presentSecond with
  | none => exact finish_of_isFinished rfl
  | some second =>
    have hphase : ({ plan with first } : Plan).phase? 2 = some second := hsecond
    refine Eq.trans (finish_of_phase?_eq_some rfl hphase) ?_
    exact finish_of_isFinished rfl

/-- A plan that is carried out on one clock ends where its lookups one by one lead to. -/
theorem run_eq_finish {peers : Peers σ} (h : replies.Govern peers) (progress : Progress)
    (session : Session σ) :
    (progress.run peers setting none session).1 = some (progress.finish replies setting) := by
  have hphase : ∀ prior phase (session : Session σ),
      (carryOutPhase peers setting none prior phase session).1 =
        some (fillEach replies setting prior phase) := by
    intro prior phase session
    simp only [carryOutPhase, Pool.runAll_eq_outcomes h, outcomes_fill, Option.map_some]
  fun_induction run peers setting none progress session with
  | case1 progress session hfinished => rw [finish_of_isFinished hfinished]
  | case2 progress session hopen hnone ih =>
    rw [ih, finish_of_phase?_eq_none (Bool.eq_false_iff.2 hopen) hnone]
  | case3 progress session _ phase _ after hrun =>
    have hsome := hphase progress.data phase session
    rw [hrun] at hsome
    cases hsome
  | case4 progress session hopen phase hsome filled after hrun ih =>
    have hfilled := hphase progress.data phase session
    rw [hrun] at hfilled
    cases hfilled
    rw [ih, finish_of_phase?_eq_some (Bool.eq_false_iff.2 hopen) hsome]

end Progress

theorem carryOutPlan_eq_sequential {peers : Peers σ} (h : replies.Govern peers) (plan : Plan)
    (session : Session σ) :
    (carryOutPlan peers setting none plan session).1 = some (sequential replies setting plan) := by
  rw [← Progress.finish_start]
  exact Progress.run_eq_finish h (Progress.start plan) session

theorem completePlan_eq_sequential {peers : Peers σ} (h : replies.Govern peers) (plan : Plan)
    (session : Session σ) :
    (completePlan peers setting plan session).1 = sequential replies setting plan :=
  Option.some.inj ((Option.some_get _).trans (carryOutPlan_eq_sequential h plan session))

/-! ### Steps -/

/-- Where a plan stands that is being carried out: between two phases, or in the phase at the
counter with the strands of its lookups. -/
inductive Stage where
  | between (progress : Progress)
  | during (progress : Progress) (strands : List (Strand Inquiry))

namespace Stage

/-- A number without a phase is skipped, a phase begins, a call of a lookup is made or answered, or
a phase of which all lookups are finished is recorded. -/
inductive Step (replies : Replies) (setting : Setting) : Stage → Stage → Prop where
  | skip (progress : Progress) (hopen : progress.counter.isFinished = false)
      (hphase : progress.plan.phase? progress.counter.index = none) :
      Step replies setting (.between progress) (.between progress.skip)
  | enter (progress : Progress) (phase : Phase) (hopen : progress.counter.isFinished = false)
      (hphase : progress.plan.phase? progress.counter.index = some phase) :
      Step replies setting (.between progress)
        (.during progress (Strand.start (phase.inquiries.map (fill setting progress.data))))
  | move (progress : Progress) {strands next : List (Strand Inquiry)}
      (h : Strand.Moves replies strands next) :
      Step replies setting (.during progress strands) (.during progress next)
  | leave (progress : Progress) (filled : List Inquiry) :
      Step replies setting (.during progress (Strand.finished filled))
        (.between (progress.record ⟨filled⟩))

/-- Where a stage leads to when everything that is left is done one by one. -/
def ending (replies : Replies) (setting : Setting) : Stage → Progress
  | .between progress => progress.finish replies setting
  | .during progress strands =>
    (progress.record ⟨strands.map (Strand.outcome replies)⟩).finish replies setting

variable {stage next : Stage}

theorem Step.ending_eq (h : Step replies setting stage next) :
    next.ending replies setting = stage.ending replies setting := by
  cases h with
  | skip progress hopen hphase => exact (Progress.finish_of_phase?_eq_none hopen hphase).symm
  | enter progress phase hopen hphase =>
    rw [ending, ending, Strand.outcomes_start, outcomes_fill,
      Progress.finish_of_phase?_eq_some hopen hphase]
  | move progress h => rw [ending, ending, h.outcomes_eq]
  | leave progress filled => rw [ending, ending, Strand.outcomes_finished]

theorem ending_eq_of_steps (h : Relation.ReflTransGen (Step replies setting) stage next) :
    next.ending replies setting = stage.ending replies setting := by
  induction h with
  | refl => rfl
  | tail _ hstep ih => rw [hstep.ending_eq, ih]

/-! ### Runs end -/

/-- Assumes that the steps from every recorded phase come to an end. -/
theorem acc_during {progress : Progress} (h : ∀ phase,
      Acc (fun next stage ↦ Step replies setting stage next) (.between (progress.record phase)))
    (strands : List (Strand Inquiry)) :
    Acc (fun next stage ↦ Step replies setting stage next) (.during progress strands) := by
  induction Strand.moves_wellFounded.apply (r := fun next strands ↦
    Strand.Moves replies strands next) strands with
  | intro strands _ ih =>
    refine ⟨_, fun next hstep ↦ ?_⟩
    cases hstep with
    | move _ hmoves => exact ih _ hmoves
    | leave _ filled => exact h ⟨filled⟩

/-- By induction on the number of phases that are left. -/
theorem acc_between (progress : Progress) :
    Acc (fun next stage ↦ Step replies setting stage next) (.between progress) := by
  induction hleft : progress.counter.count + 1 - progress.counter.index using
    Nat.strongRecOn generalizing progress with
  | ind left ih =>
    have hless : ∀ next : Progress, progress.counter.isFinished = false →
        next.counter = progress.counter.next →
        Acc (fun next stage ↦ Step replies setting stage next) (.between next) := by
      intro next hopen hnext
      rw [PhaseCounter.isFinished, decide_eq_false_iff_not] at hopen
      refine ih _ ?_ next rfl
      rw [hnext, PhaseCounter.next, ← hleft]
      dsimp only
      omega
    refine ⟨_, fun next hstep ↦ ?_⟩
    cases hstep with
    | skip _ hopen _ => exact hless _ hopen rfl
    | enter _ phase hopen _ => exact acc_during (fun _ ↦ hless _ hopen rfl) _

theorem step_wellFounded : WellFounded fun next stage ↦ Step replies setting stage next := by
  refine ⟨fun stage ↦ ?_⟩
  cases stage with
  | between progress => exact acc_between progress
  | during progress strands => exact acc_during (fun _ ↦ acc_between _) strands

/-- A stage without a next step stands behind the last phase. -/
theorem finished_or_step (replies : Replies) (setting : Setting) (stage : Stage) :
    (∃ progress, stage = .between progress ∧ progress.counter.isFinished = true) ∨
      ∃ next, Step replies setting stage next := by
  cases stage with
  | between progress =>
    by_cases hfinished : progress.counter.isFinished = true
    · exact .inl ⟨progress, rfl, hfinished⟩
    · have hopen := Bool.eq_false_iff.2 hfinished
      right
      cases hphase : progress.plan.phase? progress.counter.index with
      | none => exact ⟨_, .skip progress hopen hphase⟩
      | some phase => exact ⟨_, .enter progress phase hopen hphase⟩
  | during progress strands =>
    right
    rcases Strand.finished_or_moves replies strands with ⟨filled, rfl⟩ | ⟨next, hmoves⟩
    · exact ⟨_, .leave progress filled⟩
    · exact ⟨_, .move progress hmoves⟩

theorem not_step_of_isFinished {progress : Progress} (h : progress.counter.isFinished = true) :
    ¬ Step replies setting (.between progress) next := by
  intro hstep
  cases hstep with
  | skip _ hopen _ => exact absurd h (by simp [hopen])
  | enter _ _ hopen _ => exact absurd h (by simp [hopen])

/-- From every stage steps lead to its ending. -/
theorem steps_ending (stage : Stage) :
    Relation.ReflTransGen (Step replies setting) stage
      (.between (stage.ending replies setting)) := by
  induction stage using step_wellFounded.induction (r := fun next stage ↦
    Step replies setting stage next) with
  | h stage ih =>
    rcases finished_or_step replies setting stage with ⟨progress, rfl, hfinished⟩ | ⟨next, hstep⟩
    · rw [ending, Progress.finish_of_isFinished hfinished]
    · rw [← hstep.ending_eq]
      exact (ih next hstep).head hstep

end Stage

/-! ### Refinement -/

/-- What an inquiry asks. -/
def heading (inquiry : Inquiry) : String × String × String :=
  (inquiry.question, inquiry.description, inquiry.table)

theorem headings_fillEach (prior : Json.Entries) (phase : Phase) :
    (fillEach replies setting prior phase).inquiries.map heading =
      phase.inquiries.map heading := by
  rw [fillEach, List.map_map]
  rfl

theorem headings_sequential (plan : Plan) :
    (sequential replies setting plan).plan.inquiries.map heading = plan.inquiries.map heading := by
  unfold sequential
  cases hsecond : plan.presentSecond with
  | none =>
    simp only [Plan.inquiries, List.map_append, headings_fillEach]
  | some phase =>
    obtain ⟨hphase, -⟩ := Option.filter_eq_some_iff.1 hsecond
    simp only [Plan.inquiries, List.map_append, headings_fillEach, hphase, Option.map_some,
      Option.getD_some]

/-- Every way of carrying out a plan ends, and it ends where the lookups of its inquiries one after
another lead to: in whatever order the calls of a phase are made and answered, and also on one clock
with any delays. No inquiry depends on the replies to calls of others, and what it asks stays as it
is. Assumes that the replies of the peers depend on nothing but the content of the calls. -/
theorem interleaved_eq_sequential {peers : Peers σ} (h : replies.Govern peers) (setting : Setting)
    (plan : Plan) :
    (WellFounded fun next stage ↦ Stage.Step replies setting stage next) ∧
    (∀ stage,
      Relation.ReflTransGen (Stage.Step replies setting) (.between (.start plan)) stage →
      Relation.ReflTransGen (Stage.Step replies setting) stage
        (.between (sequential replies setting plan)) ∧
      ((∀ next, ¬ Stage.Step replies setting stage next) ↔
        stage = .between (sequential replies setting plan))) ∧
    (∀ session, (completePlan peers setting plan session).1 = sequential replies setting plan) ∧
    (∀ prior inquiry session, ((fill setting prior inquiry).run peers session).1 =
      fillAlone replies setting prior inquiry) ∧
    (sequential replies setting plan).plan.inquiries.map heading =
      plan.inquiries.map heading ∧
    ∀ other prior inquiry,
      (∀ call ∈ (lookUp setting prior inquiry).calls replies, replies.AgreeOn other call) →
        fillAlone other setting prior inquiry = fillAlone replies setting prior inquiry := by
  refine ⟨Stage.step_wellFounded, fun stage hsteps ↦ ?_, completePlan_eq_sequential h plan,
    fun prior inquiry session ↦ ?_, headings_sequential plan,
    fun other prior inquiry hagree ↦ ?_⟩
  · have hending : stage.ending replies setting = sequential replies setting plan :=
      (Stage.ending_eq_of_steps hsteps).trans (Progress.finish_start plan)
    refine ⟨hending ▸ Stage.steps_ending stage, fun hstuck ↦ ?_, ?_⟩
    · rcases Stage.finished_or_step replies setting stage with
        ⟨progress, rfl, hfinished⟩ | ⟨next, hstep⟩
      · rw [← hending, Stage.ending, Progress.finish_of_isFinished hfinished]
      · exact absurd hstep (hstuck next)
    · rintro rfl next
      exact Stage.not_step_of_isFinished (isFinished_sequential plan)
  · rw [Dialogue.run_eq_outcome h, outcome_fill]
  · rw [fillAlone, fillAlone, Dialogue.outcome_congr hagree]

/-- A model that selects names, and a data service that knows one province. -/
def provinceReplies : Replies where
  complete := fun _ ↦ .ok (.object [("name", .bool true)])
  post := fun _ ↦ .ok ⟨some [("provinces", .array [.string "Hanoi"])], none⟩

/-- The provinces in both phases, in the first one next to a table that is not known. -/
def provincePlan : Plan where
  first := ⟨[{ question := "Which provinces?", table := "provinces" },
    { question := "Which roads?", table := "roads" }]⟩
  second := some ⟨[{ question := "Which ones again?", table := "provinces" }]⟩

/-- Every reply takes longer than the one before. -/
theorem interleaved_eq_sequential_provinces :
    provinceReplies.Govern (provinceReplies.delayed (5 * ·)) ∧
    (completePlan (provinceReplies.delayed (5 * ·))
      ⟨Catalog.airQuality, .model, ⟨[]⟩, 4096, "2024-05-01"⟩ provincePlan ⟨0, 0, []⟩).1.data =
        [("provinces", .array [.string "Hanoi", .string "Hanoi"])] ∧
    (completePlan (provinceReplies.delayed (5 * ·))
      ⟨Catalog.airQuality, .model, ⟨[]⟩, 4096, "2024-05-01"⟩
      provincePlan ⟨0, 0, []⟩).1.plan.inquiries.map Inquiry.error =
        [none, some "field selection failed", none] := by
  have hgovern := provinceReplies.govern_delayed (5 * ·)
  have hrun := (interleaved_eq_sequential hgovern
    ⟨Catalog.airQuality, .model, ⟨[]⟩, 4096, "2024-05-01"⟩ provincePlan).2.2.1 ⟨0, 0, []⟩
  rw [hrun]
  exact ⟨hgovern, rfl, by decide +kernel⟩

end AirInquiry.Lookup
