import AirInquiry.Peer.Pool
import Mathlib.Tactic.Common

/-!
# Runs with a deadline

A pool with a deadline is compared with the same pool without one. Whatever the peers do, the clock
of a run never goes back (`Pool.run_goesOn`), because every awaited reply is due at the time on the
clock or later (`Place.IsDueFrom`). So the time at which the whole run ends decides: if it ends by
the deadline, the run with the deadline is the same run, and otherwise it has no results, its clock
stands at the deadline, and its calls are the first calls of the whole run (`Pool.run_isCutAt`).
-/

set_option autoImplicit false
set_option relaxedAutoImplicit false

namespace AirInquiry

variable {α β γ σ : Type}

namespace Session

/-- The later session goes on from the earlier one: time has not gone back, and the calls made so
far are still the first ones. -/
structure GoesOn (earlier later : Session σ) : Prop where
  clock : earlier.clock ≤ later.clock
  calls : earlier.calls <+: later.calls

theorem GoesOn.refl (session : Session σ) : GoesOn session session :=
  ⟨Nat.le_refl _, List.prefix_rfl⟩

theorem GoesOn.trans {first second third : Session σ} (hfirst : GoesOn first second)
    (hsecond : GoesOn second third) : GoesOn first third :=
  ⟨Nat.le_trans hfirst.clock hsecond.clock, hfirst.calls.trans hsecond.calls⟩

/-- The later session goes on from the earlier one without any time between them. -/
structure GoesOnAtOnce (earlier later : Session σ) : Prop where
  clock : later.clock = earlier.clock
  calls : earlier.calls <+: later.calls

theorem GoesOnAtOnce.refl (session : Session σ) : GoesOnAtOnce session session :=
  ⟨rfl, List.prefix_rfl⟩

theorem GoesOnAtOnce.trans {first second third : Session σ} (hfirst : GoesOnAtOnce first second)
    (hsecond : GoesOnAtOnce second third) : GoesOnAtOnce first third :=
  ⟨hsecond.clock.trans hfirst.clock, hfirst.calls.trans hsecond.calls⟩

theorem GoesOnAtOnce.goesOn {earlier later : Session σ} (h : GoesOnAtOnce earlier later) :
    GoesOn earlier later :=
  ⟨Nat.le_of_eq h.clock.symm, h.calls⟩

theorem complete_goesOnAtOnce (peers : Peers σ) (request : Completion.Request)
    (session : Session σ) : GoesOnAtOnce session (session.complete peers request).2 :=
  ⟨rfl, List.prefix_append _ _⟩

theorem post_goesOnAtOnce (peers : Peers σ) (query : String) (session : Session σ) :
    GoesOnAtOnce session (session.post peers query).2 :=
  ⟨rfl, List.prefix_append _ _⟩

end Session

open Session (GoesOn GoesOnAtOnce)

/-! ### Replies that are still to come -/

/-- A reply that is still awaited is due at a time or later. -/
def Place.IsDueFrom (time : Nat) (place : Place α) : Prop := ∀ due ∈ place.due?, time ≤ due

/-- A dialogue that goes on until it has to wait takes no time, and waits for a later reply. -/
theorem Dialogue.proceed_goesOnAtOnce (peers : Peers σ) (dialogue : Dialogue α)
    (session : Session σ) : GoesOnAtOnce session (dialogue.proceed peers session).2 ∧
      (dialogue.proceed peers session).1.IsDueFrom session.clock := by
  induction dialogue generalizing session with
  | done result =>
    refine ⟨.refl session, fun due hdue ↦ ?_⟩
    cases hdue
  | complete request next ih =>
    have hcall := Session.complete_goesOnAtOnce peers request session
    simp only [proceed]
    split
    · obtain ⟨hgoes, hdue⟩ := ih (session.complete peers request).1.reply
        (session.complete peers request).2
      exact ⟨hcall.trans hgoes, hdue⟩
    · refine ⟨hcall, fun due hdue ↦ ?_⟩
      cases hdue
      exact Nat.le_add_right _ _
  | post query next ih =>
    have hcall := Session.post_goesOnAtOnce peers query session
    simp only [proceed]
    split
    · obtain ⟨hgoes, hdue⟩ := ih (session.post peers query).1.reply (session.post peers query).2
      exact ⟨hcall.trans hgoes, hdue⟩
    · refine ⟨hcall, fun due hdue ↦ ?_⟩
      cases hdue
      exact Nat.le_add_right _ _

namespace Pool

/-- Assumes that at this time the step of every item takes no time and leaves a place that waits for
a later reply. -/
theorem inOrder_goesOnAtOnce {time : Nat} {step : β → Session σ → Place α × Session σ}
    {items : List β} (h : ∀ item ∈ items, ∀ session : Session σ, session.clock = time →
      GoesOnAtOnce session (step item session).2 ∧ (step item session).1.IsDueFrom time)
    (session : Session σ) (htime : session.clock = time) :
    GoesOnAtOnce session (inOrder step items session).2 ∧
      ∀ place ∈ (inOrder step items session).1, place.IsDueFrom time := by
  induction items generalizing session with
  | nil => exact ⟨.refl session, by simp [inOrder]⟩
  | cons item rest ih =>
    obtain ⟨hfirst, hdue⟩ := h item (by simp) session htime
    obtain ⟨hothers, hdues⟩ := ih (fun other hother ↦ h other (by simp [hother]))
      (step item session).2 (hfirst.clock.trans htime)
    refine ⟨hfirst.trans hothers, fun place hplace ↦ ?_⟩
    simp only [inOrder, List.mem_cons] at hplace
    rcases hplace with rfl | hplace
    · exact hdue
    · exact hdues place hplace

/-- The places of a pool that has been started wait for replies from then on. -/
theorem start_goesOnAtOnce (peers : Peers σ) (dialogues : List (Dialogue α))
    (session : Session σ) : GoesOnAtOnce session (start peers dialogues session).2 ∧
      ∀ place ∈ (start peers dialogues session).1.places, place.IsDueFrom session.clock := by
  refine inOrder_goesOnAtOnce (fun dialogue _ session htime ↦ ?_) session rfl
  rw [← htime]
  exact dialogue.proceed_goesOnAtOnce peers session

/-- Waking a place at the time on the clock leaves it waiting for a reply from then on. -/
theorem wakePlace_goesOnAtOnce (peers : Peers σ) {place : Place α} (session : Session σ)
    (h : place.IsDueFrom session.clock) :
    GoesOnAtOnce session (wakePlace peers session.clock place session).2 ∧
      (wakePlace peers session.clock place session).1.IsDueFrom session.clock := by
  cases place with
  | finished result => exact ⟨.refl session, h⟩
  | waiting due rest =>
    simp only [wakePlace]
    split
    · exact rest.proceed_goesOnAtOnce peers session
    · exact ⟨.refl session, h⟩

theorem isDueFrom_earliest? {pool : Pool α} {due : Nat} (h : pool.earliest? = some due) :
    ∀ place ∈ pool.places, place.IsDueFrom due := by
  intro place hplace other hother
  exact (List.min?_eq_some_iff.1 h).2 other (List.mem_filterMap.2 ⟨place, hplace, hother⟩)

theorem le_earliest? {pool : Pool α} {due time : Nat} (h : pool.earliest? = some due)
    (hdues : ∀ place ∈ pool.places, place.IsDueFrom time) : time ≤ due := by
  obtain ⟨place, hplace, hdue⟩ := List.mem_filterMap.1 (List.min?_mem h)
  exact hdues place hplace due hdue

/-- Waking a pool at its earliest due time takes no time, and leaves places that wait for replies
from then on. -/
theorem wake_goesOnAtOnce (peers : Peers σ) {pool : Pool α} {due : Nat}
    (h : pool.earliest? = some due) (session : Session σ) :
    GoesOnAtOnce { session with clock := due }
        (wake peers due pool { session with clock := due }).2 ∧
      ∀ place ∈ (wake peers due pool { session with clock := due }).1.places,
        place.IsDueFrom (wake peers due pool { session with clock := due }).2.clock := by
  have hwake : GoesOnAtOnce { session with clock := due }
        (wake peers due pool { session with clock := due }).2 ∧
      ∀ place ∈ (wake peers due pool { session with clock := due }).1.places,
        place.IsDueFrom due := by
    refine inOrder_goesOnAtOnce (fun place hplace session htime ↦ ?_) _ rfl
    subst htime
    exact wakePlace_goesOnAtOnce peers session (isDueFrom_earliest? h place hplace)
  refine ⟨hwake.1, fun place hplace ↦ ?_⟩
  rw [hwake.1.clock]
  exact hwake.2 place hplace

/-! ### Whole runs -/

/-- Assumes that all replies are still to come. -/
theorem run_goesOn (peers : Peers σ) (deadline : Option Nat) (pool : Pool α) (session : Session σ)
    (h : ∀ place ∈ pool.places, place.IsDueFrom session.clock) :
    GoesOn session (pool.run peers deadline session).2 := by
  fun_induction run peers deadline pool session with
  | case1 => exact .refl _
  | case2 pool session due _ _ => exact ⟨Nat.le_max_left _ _, List.prefix_rfl⟩
  | case3 pool session due hdue _ next ih =>
    obtain ⟨hwake, hdues⟩ := wake_goesOnAtOnce peers hdue session
    have hclock : GoesOn session { session with clock := due } :=
      ⟨le_earliest? hdue h, List.prefix_rfl⟩
    exact (hclock.trans hwake.goesOn).trans (ih hdues)

theorem runAll_goesOn (peers : Peers σ) (deadline : Option Nat) (dialogues : List (Dialogue α))
    (session : Session σ) : GoesOn session (runAll peers deadline dialogues session).2 := by
  obtain ⟨hstart, hdues⟩ := start_goesOnAtOnce peers dialogues session
  rw [← hstart.clock] at hdues
  exact hstart.goesOn.trans (run_goesOn peers deadline _ _ hdues)

end Pool

/-- How a run with a deadline stands to the whole run: it is the same if the whole run ends by the
deadline. Otherwise there is no result, the clock stands at the deadline, and the calls are the
first ones of the whole run. -/
structure IsCutAt (limit : Nat) (whole cut : Option α × Session σ) : Prop where
  inTime : whole.2.clock ≤ limit → cut = whole
  late : limit < whole.2.clock →
    cut.1 = none ∧ cut.2.clock = limit ∧ cut.2.calls <+: whole.2.calls

theorem IsCutAt.refl {limit : Nat} {run : Option α × Session σ} (h : run.2.clock ≤ limit) :
    IsCutAt limit run run :=
  ⟨fun _ ↦ rfl, fun hlate ↦ absurd h (Nat.not_le.2 hlate)⟩

theorem IsCutAt.map {limit : Nat} {whole cut : Option α × Session σ} (h : IsCutAt limit whole cut)
    (change : α → β) :
    IsCutAt limit (whole.1.map change, whole.2) (cut.1.map change, cut.2) where
  inTime hclock := by rw [h.inTime hclock]
  late hclock := by
    obtain ⟨hnone, hrest⟩ := h.late hclock
    exact ⟨by rw [hnone, Option.map_none], hrest⟩

namespace Pool

theorem run_of_earliest?_eq_none (peers : Peers σ) (deadline : Option Nat) {pool : Pool α}
    (h : pool.earliest? = none) (session : Session σ) :
    pool.run peers deadline session = (some pool.results, session) := by
  rw [run]
  split
  · rfl
  · next due hdue =>
    rw [h] at hdue
    cases hdue

theorem run_of_late (peers : Peers σ) {limit due : Nat} {pool : Pool α}
    (h : pool.earliest? = some due) (hlate : limit < due) (session : Session σ) :
    pool.run peers (some limit) session =
      (none, { session with clock := max session.clock limit }) := by
  rw [run]
  split
  · next hnone =>
    rw [h] at hnone
    cases hnone
  · next other hother =>
    rw [h] at hother
    cases hother
    rw [if_pos (by simpa [isLate] using hlate), Option.getD_some]

theorem run_of_due (peers : Peers σ) {limit due : Nat} {pool : Pool α}
    (h : pool.earliest? = some due) (hdue : due ≤ limit) (session : Session σ) :
    pool.run peers (some limit) session =
      (wake peers due pool { session with clock := due }).1.run peers (some limit)
        (wake peers due pool { session with clock := due }).2 := by
  rw [run]
  split
  · next hnone =>
    rw [h] at hnone
    cases hnone
  · next other hother =>
    rw [h] at hother
    cases hother
    rw [if_neg (by simpa [isLate] using hdue)]

/-- Assumes that all replies are still to come and that the deadline has not passed. By induction on
the whole run. -/
theorem run_isCutAt (peers : Peers σ) {limit : Nat} (pool : Pool α) (session : Session σ)
    (h : ∀ place ∈ pool.places, place.IsDueFrom session.clock) (hlimit : session.clock ≤ limit) :
    IsCutAt limit (pool.run peers none session) (pool.run peers (some limit) session) := by
  have hwhole := run_goesOn peers none pool session h
  fun_induction run peers none pool session with
  | case1 pool session hnone =>
    rw [run_of_earliest?_eq_none peers _ hnone]
    exact .refl hlimit
  | case2 pool session due _ hlate => cases hlate
  | case3 pool session due hdue _ next ih =>
    obtain ⟨hwake, hdues⟩ := wake_goesOnAtOnce peers hdue session
    have hrest := run_goesOn peers none next.1 next.2 hdues
    have hnow : next.2.clock = due := hwake.clock
    rcases Nat.lt_or_ge limit due with hlate | htime
    · rw [run_of_late peers hdue hlate]
      have hend : limit < (next.1.run peers none next.2).2.clock :=
        Nat.lt_of_lt_of_le hlate (Nat.le_trans (Nat.le_of_eq hnow.symm) hrest.clock)
      exact ⟨fun hclock ↦ absurd hclock (Nat.not_le.2 hend),
        fun _ ↦ ⟨rfl, Nat.max_eq_right hlimit, hwhole.calls⟩⟩
    · rw [run_of_due peers hdue htime]
      exact ih hdues (Nat.le_trans (Nat.le_of_eq hnow) htime) hrest

theorem runAll_isCutAt (peers : Peers σ) {limit : Nat} (dialogues : List (Dialogue α))
    (session : Session σ) (hlimit : session.clock ≤ limit) :
    IsCutAt limit (runAll peers none dialogues session)
      (runAll peers (some limit) dialogues session) := by
  obtain ⟨hstart, hdues⟩ := start_goesOnAtOnce peers dialogues session
  rw [← hstart.clock] at hdues hlimit
  exact run_isCutAt peers _ _ hdues hlimit

end Pool

end AirInquiry
