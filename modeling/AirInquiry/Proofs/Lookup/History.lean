import AirInquiry.Lookup.Progress
import AirInquiry.Proofs.Peer.Interleaving
import AirInquiry.Proofs.Peer.Turns

/-!
# Histories of a plan

A history is what happens while a plan is carried out, whatever the peers reply and however long
they take (`History`). Every inquiry of the phase at the counter has a slot. Its lookup begins with
the results of earlier phases, makes calls and hears replies, and is filled in at its end
(`Slot.Step`); the slots of a phase take their steps in any order. When all of them are filled in,
the phase is recorded and the next one may begin (`Standing.Step`).

A slot tells what has happened at its place: `Slot.Behind` gives the deeds behind it, and every step
adds its deed to them (`Slot.Step.behind`). No history goes on for ever
(`Standing.step_wellFounded`), and one that cannot go on stands behind the last phase
(`Standing.finished_or_step`), so every history can be brought to its end (`History.exists_end`).
-/

set_option autoImplicit false
set_option relaxedAutoImplicit false

namespace AirInquiry.Lookup

variable {setting : Setting} {prior : Json.Entries} {inquiry : Inquiry}

/-! ### One inquiry -/

/-- What happens in the lookup of an inquiry. -/
inductive Deed where
  | begins (prior : Json.Entries)
  | calls (call : Call)
  | hears (turn : Turn)
  | fills (filled : Inquiry)

/-- The call that is made, if one is. -/
def Deed.call? : Deed → Option Call
  | .calls call => some call
  | _ => none

/-- A turn as it happens: the call is made, and the reply is heard. -/
def turnDeeds (turn : Turn) : List Deed := [.calls turn.call, .hears turn]

theorem filterMap_call?_turnDeeds (turns : List Turn) :
    (turns.flatMap turnDeeds).filterMap Deed.call? = turns.map Turn.call := by
  induction turns with
  | nil => rfl
  | cons turn rest ih =>
    rw [List.flatMap_cons, List.filterMap_append, ih]
    rfl

/-- How far the lookup of an inquiry has come. -/
inductive Slot where
  | idle (inquiry : Inquiry)
  | busy (inquiry : Inquiry) (strand : Strand Outcome)
  | filled (inquiry : Inquiry)

namespace Slot

/-- A lookup begins, makes its next call, hears any reply to it, or is filled in. -/
inductive Step (setting : Setting) (prior : Json.Entries) : Slot → Deed → Slot → Prop where
  | begin (inquiry : Inquiry) :
      Step setting prior (.idle inquiry) (.begins prior)
        (.busy inquiry (.ready (lookUp setting prior inquiry)))
  | ask (inquiry : Inquiry) (request : Completion.Request)
      (next : Completion.Reply → Dialogue Outcome) :
      Step setting prior (.busy inquiry (.ready (.complete request next)))
        (.calls (.complete request)) (.busy inquiry (.completing request next))
  | hear (inquiry : Inquiry) (request : Completion.Request)
      (next : Completion.Reply → Dialogue Outcome) (reply : Completion.Reply) :
      Step setting prior (.busy inquiry (.completing request next))
        (.hears (.complete request reply)) (.busy inquiry (.ready (next reply)))
  | send (inquiry : Inquiry) (query : String) (next : Transport.Reply → Dialogue Outcome) :
      Step setting prior (.busy inquiry (.ready (.post query next)))
        (.calls (.post query)) (.busy inquiry (.posting query next))
  | receive (inquiry : Inquiry) (query : String) (next : Transport.Reply → Dialogue Outcome)
      (reply : Transport.Reply) :
      Step setting prior (.busy inquiry (.posting query next))
        (.hears (.post query reply)) (.busy inquiry (.ready (next reply)))
  | fill (inquiry : Inquiry) (outcome : Outcome) :
      Step setting prior (.busy inquiry (.ready (.done outcome)))
        (.fills (outcome.fillIn inquiry)) (.filled (outcome.fillIn inquiry))

end Slot

/-- The deeds of an inquiry that was looked up once, from the beginning with the results of earlier
phases to the filled inquiry, with these turns in between. -/
def IsLookup (setting : Setting) (prior : Json.Entries) (inquiry : Inquiry) (turns : List Turn)
    (deeds : List Deed) (filled : Inquiry) : Prop :=
  deeds = .begins prior :: turns.flatMap turnDeeds ++ [.fills filled] ∧
    ∃ outcome : Outcome, filled = outcome.fillIn inquiry ∧
      (lookUp setting prior inquiry).Reaches turns (.done outcome)

/-- What is left of a lookup, with the call that awaits its reply. -/
def waitingFor : Strand Outcome → Dialogue Outcome × List Deed
  | .ready rest => (rest, [])
  | .completing request next => (.complete request next, [.calls (.complete request)])
  | .posting query next => (.post query next, [.calls (.post query)])

namespace Slot

/-- The deeds are those behind a slot of the inquiry. -/
def Behind (setting : Setting) (prior : Json.Entries) (inquiry : Inquiry) (deeds : List Deed) :
    Slot → Prop
  | .idle asked => asked = inquiry ∧ deeds = []
  | .busy asked strand => asked = inquiry ∧ ∃ turns,
      (lookUp setting prior inquiry).Reaches turns (waitingFor strand).1 ∧
        deeds = .begins prior :: turns.flatMap turnDeeds ++ (waitingFor strand).2
  | .filled result => ∃ turns, IsLookup setting prior inquiry turns deeds result

theorem Step.behind {slot next : Slot} {deed : Deed} {deeds : List Deed}
    (hstep : Step setting prior slot deed next) (h : slot.Behind setting prior inquiry deeds) :
    next.Behind setting prior inquiry (deeds ++ [deed]) := by
  cases hstep with
  | begin asked =>
    obtain ⟨rfl, rfl⟩ := h
    exact ⟨rfl, [], .refl _, rfl⟩
  | ask asked request next =>
    obtain ⟨rfl, turns, hreaches, rfl⟩ := h
    refine ⟨rfl, turns, hreaches, ?_⟩
    simp only [waitingFor, List.append_nil]
  | send asked query next =>
    obtain ⟨rfl, turns, hreaches, rfl⟩ := h
    refine ⟨rfl, turns, hreaches, ?_⟩
    simp only [waitingFor, List.append_nil]
  | hear asked request next reply =>
    obtain ⟨rfl, turns, hreaches, rfl⟩ := h
    have hheard : (lookUp setting prior asked).Reaches (turns ++ [.complete request reply])
        (next reply) := hreaches.trans (.complete reply (.refl _))
    refine ⟨rfl, _, hheard, ?_⟩
    simp [waitingFor, turnDeeds, Turn.call]
  | receive asked query next reply =>
    obtain ⟨rfl, turns, hreaches, rfl⟩ := h
    have hheard : (lookUp setting prior asked).Reaches (turns ++ [.post query reply])
        (next reply) := hreaches.trans (.post reply (.refl _))
    refine ⟨rfl, _, hheard, ?_⟩
    simp [waitingFor, turnDeeds, Turn.call]
  | fill asked outcome =>
    obtain ⟨rfl, turns, hreaches, rfl⟩ := h
    refine ⟨turns, ?_, outcome, rfl, hreaches⟩
    simp only [waitingFor, List.append_nil]

end Slot

/-! ### A whole plan -/

/-- A deed of the inquiry at a place of a phase. Phases are counted from one, places from zero. -/
structure Event where
  phase : Nat
  place : Nat
  deed : Deed

/-- The calls among events. -/
def callsOf (events : List Event) : List Call := events.filterMap fun event ↦ event.deed.call?

theorem callsOf_append (first second : List Event) :
    callsOf (first ++ second) = callsOf first ++ callsOf second :=
  List.filterMap_append

/-- Where a plan stands: between two phases, or in the phase at the counter with its slots. -/
inductive Standing where
  | between (progress : Progress)
  | during (progress : Progress) (slots : List Slot)

namespace Standing

/-- A number without a phase is skipped, a phase begins with idle slots, a slot makes a step, or a
phase of which all inquiries are filled in is recorded. -/
inductive Step (setting : Setting) : Standing → List Event → Standing → Prop where
  | skip (progress : Progress) (hopen : progress.counter.isFinished = false)
      (hphase : progress.plan.phase? progress.counter.index = none) :
      Step setting (.between progress) [] (.between progress.skip)
  | enter (progress : Progress) (phase : Phase) (hopen : progress.counter.isFinished = false)
      (hphase : progress.plan.phase? progress.counter.index = some phase) :
      Step setting (.between progress) [] (.during progress (phase.inquiries.map .idle))
  | act (progress : Progress) {slots : List Slot} {place : Nat} {slot next : Slot} {deed : Deed}
      (hslot : slots[place]? = some slot) (h : Slot.Step setting progress.data slot deed next) :
      Step setting (.during progress slots) [⟨progress.counter.index, place, deed⟩]
        (.during progress (slots.set place next))
  | leave (progress : Progress) (filled : List Inquiry) :
      Step setting (.during progress (filled.map .filled)) []
        (.between (progress.record ⟨filled⟩))

end Standing

/-- Steps of a plan one after another, with the events in their order. -/
inductive History (setting : Setting) : Standing → List Event → Standing → Prop where
  | refl (standing : Standing) : History setting standing [] standing
  | step {first standing next : Standing} {events added : List Event}
      (h : History setting first events standing) (hstep : standing.Step setting added next) :
      History setting first (events ++ added) next

namespace History

variable {first second third : Standing} {early late : List Event}

theorem trans (hfirst : History setting first early second)
    (hsecond : History setting second late third) :
    History setting first (early ++ late) third := by
  induction hsecond with
  | refl => rwa [List.append_nil]
  | step _ hstep ih =>
    rw [← List.append_assoc]
    exact ih.step hstep

theorem single (h : first.Step setting early second) : History setting first early second := by
  have hhistory := (refl first).step h
  rwa [List.nil_append] at hhistory

end History

/-! ### Histories end -/

namespace Slot

theorem acc_filled (inquiry : Inquiry) :
    Acc (fun next slot ↦ ∃ deed, Step setting prior slot deed next) (.filled inquiry) :=
  ⟨_, fun next ⟨_, hstep⟩ ↦ by cases hstep⟩

/-- By induction on what is left of the lookup. -/
theorem acc_ready (inquiry : Inquiry) (rest : Dialogue Outcome) :
    Acc (fun next slot ↦ ∃ deed, Step setting prior slot deed next)
      (.busy inquiry (.ready rest)) := by
  induction rest with
  | done outcome =>
    refine ⟨_, fun next ⟨_, hstep⟩ ↦ ?_⟩
    cases hstep
    exact acc_filled _
  | complete request next ih =>
    refine ⟨_, fun waiting ⟨_, hstep⟩ ↦ ?_⟩
    cases hstep
    exact ⟨_, fun heard ⟨_, hheard⟩ ↦ by cases hheard; exact ih _⟩
  | post query next ih =>
    refine ⟨_, fun waiting ⟨_, hstep⟩ ↦ ?_⟩
    cases hstep
    exact ⟨_, fun heard ⟨_, hheard⟩ ↦ by cases hheard; exact ih _⟩

theorem step_wellFounded :
    WellFounded fun next slot ↦ ∃ deed, Step setting prior slot deed next := by
  refine ⟨fun slot ↦ ?_⟩
  cases slot with
  | idle inquiry => exact ⟨_, fun next ⟨_, hstep⟩ ↦ by cases hstep; exact acc_ready _ _⟩
  | busy inquiry strand =>
    cases strand with
    | ready rest => exact acc_ready inquiry rest
    | completing request rest =>
      exact ⟨_, fun next ⟨_, hstep⟩ ↦ by cases hstep; exact acc_ready _ _⟩
    | posting query rest => exact ⟨_, fun next ⟨_, hstep⟩ ↦ by cases hstep; exact acc_ready _ _⟩
  | filled inquiry => exact acc_filled inquiry

theorem filled_or_step (setting : Setting) (prior : Json.Entries) (slot : Slot) :
    (∃ inquiry, slot = .filled inquiry) ∨ ∃ deed next, Step setting prior slot deed next := by
  cases slot with
  | idle inquiry => exact .inr ⟨_, _, .begin inquiry⟩
  | busy inquiry strand =>
    right
    cases strand with
    | ready rest =>
      cases rest with
      | done outcome => exact ⟨_, _, .fill inquiry outcome⟩
      | complete request next => exact ⟨_, _, .ask inquiry request next⟩
      | post query next => exact ⟨_, _, .send inquiry query next⟩
    | completing request next => exact ⟨_, _, .hear inquiry request next (.error .noContent)⟩
    | posting query next => exact ⟨_, _, .receive inquiry query next (.ok {})⟩
  | filled inquiry => exact .inl ⟨inquiry, rfl⟩

/-- One of the slots of a phase makes a step. -/
def StepsAmong (setting : Setting) (prior : Json.Entries) (slots next : List Slot) : Prop :=
  ∃ place slot deed moved, slots[place]? = some slot ∧ Step setting prior slot deed moved ∧
    next = slots.set place moved

theorem acc_cons {slot : Slot} {rest : List Slot}
    (hslot : Acc (fun next slot ↦ ∃ deed, Step setting prior slot deed next) slot)
    (hrest : Acc (fun next slots ↦ StepsAmong setting prior slots next) rest) :
    Acc (fun next slots ↦ StepsAmong setting prior slots next) (slot :: rest) := by
  induction hslot generalizing rest with
  | intro slot _ ih =>
    induction hrest with
    | intro rest hbelow ihrest =>
      refine ⟨_, fun next hnext ↦ ?_⟩
      obtain ⟨place, moving, deed, moved, hplace, hstep, rfl⟩ := hnext
      cases place with
      | zero =>
        cases hplace
        exact ih moved ⟨deed, hstep⟩ ⟨_, hbelow⟩
      | succ place => exact ihrest _ ⟨place, moving, deed, moved, hplace, hstep, rfl⟩

theorem stepsAmong_wellFounded :
    WellFounded fun next slots ↦ StepsAmong setting prior slots next := by
  refine ⟨fun slots ↦ ?_⟩
  induction slots with
  | nil => exact ⟨_, fun next ⟨_, _, _, _, hplace, _⟩ ↦ by cases hplace⟩
  | cons slot rest ih => exact acc_cons (step_wellFounded.apply slot) ih

theorem allFilled_or_step (setting : Setting) (prior : Json.Entries) (slots : List Slot) :
    (∃ inquiries : List Inquiry, slots = inquiries.map .filled) ∨
      ∃ next, StepsAmong setting prior slots next := by
  induction slots with
  | nil => exact .inl ⟨[], rfl⟩
  | cons slot rest ih =>
    rcases filled_or_step setting prior slot with ⟨inquiry, rfl⟩ | ⟨deed, moved, hstep⟩
    · rcases ih with ⟨inquiries, rfl⟩ | ⟨next, place, moving, deed, moved, hplace, hstep, -⟩
      · exact .inl ⟨inquiry :: inquiries, rfl⟩
      · exact .inr ⟨_, place + 1, moving, deed, moved, hplace, hstep, rfl⟩
    · exact .inr ⟨_, 0, slot, deed, moved, rfl, hstep, rfl⟩

end Slot

namespace Standing

/-- Assumes that the steps from every recorded phase come to an end. -/
theorem acc_during {progress : Progress} (h : ∀ phase,
      Acc (fun next standing ↦ ∃ events, Step setting standing events next)
        (.between (progress.record phase)))
    (slots : List Slot) :
    Acc (fun next standing ↦ ∃ events, Step setting standing events next)
      (.during progress slots) := by
  induction Slot.stepsAmong_wellFounded.apply (r := fun next slots ↦
    Slot.StepsAmong setting progress.data slots next) slots with
  | intro slots _ ih =>
    refine ⟨_, fun next ⟨events, hstep⟩ ↦ ?_⟩
    cases hstep with
    | act _ hslot hmoved => exact ih _ ⟨_, _, _, _, hslot, hmoved, rfl⟩
    | leave _ filled => exact h ⟨filled⟩

/-- By induction on the number of phases that are left. -/
theorem acc_between (progress : Progress) :
    Acc (fun next standing ↦ ∃ events, Step setting standing events next)
      (.between progress) := by
  induction hleft : progress.counter.count + 1 - progress.counter.index using
    Nat.strongRecOn generalizing progress with
  | ind left ih =>
    have hless : ∀ next : Progress, progress.counter.isFinished = false →
        next.counter = progress.counter.next →
        Acc (fun next standing ↦ ∃ events, Step setting standing events next)
          (.between next) := by
      intro next hopen hnext
      rw [PhaseCounter.isFinished, decide_eq_false_iff_not] at hopen
      refine ih _ ?_ next rfl
      rw [hnext, PhaseCounter.next, ← hleft]
      dsimp only
      omega
    refine ⟨_, fun next ⟨events, hstep⟩ ↦ ?_⟩
    cases hstep with
    | skip _ hopen _ => exact hless _ hopen rfl
    | enter _ phase hopen _ => exact acc_during (fun _ ↦ hless _ hopen rfl) _

theorem step_wellFounded :
    WellFounded fun next standing ↦ ∃ events, Step setting standing events next := by
  refine ⟨fun standing ↦ ?_⟩
  cases standing with
  | between progress => exact acc_between progress
  | during progress slots => exact acc_during (fun _ ↦ acc_between _) slots

/-- The plan stands behind its last phase. -/
def IsFinished : Standing → Prop
  | .between progress => progress.counter.isFinished = true
  | .during _ _ => False

theorem finished_or_step (setting : Setting) (standing : Standing) :
    standing.IsFinished ∨ ∃ events next, Step setting standing events next := by
  cases standing with
  | between progress =>
    by_cases hfinished : progress.counter.isFinished = true
    · exact .inl hfinished
    · have hopen := Bool.eq_false_iff.2 hfinished
      right
      cases hphase : progress.plan.phase? progress.counter.index with
      | none => exact ⟨_, _, .skip progress hopen hphase⟩
      | some phase => exact ⟨_, _, .enter progress phase hopen hphase⟩
  | during progress slots =>
    right
    rcases Slot.allFilled_or_step setting progress.data slots with
      ⟨filled, rfl⟩ | ⟨next, place, slot, deed, moved, hslot, hstep, -⟩
    · exact ⟨_, _, .leave progress filled⟩
    · exact ⟨_, _, .act progress hslot hstep⟩

end Standing

/-- Every history can be brought to its end. -/
theorem History.exists_end (setting : Setting) (standing : Standing) :
    ∃ events last, History setting standing events last ∧ last.IsFinished := by
  induction standing using Standing.step_wellFounded.induction (r := fun next standing ↦
    ∃ events, Standing.Step setting standing events next) with
  | h standing ih =>
    rcases Standing.finished_or_step setting standing with hfinished | ⟨added, next, hstep⟩
    · exact ⟨[], standing, .refl standing, hfinished⟩
    · obtain ⟨events, last, hhistory, hlast⟩ := ih next ⟨added, hstep⟩
      exact ⟨added ++ events, last, (single hstep).trans hhistory, hlast⟩

end AirInquiry.Lookup
