import AirInquiry.Proofs.Lookup.Accumulation
import AirInquiry.Proofs.Lookup.Clock
import AirInquiry.Proofs.Lookup.Interleaving
import AirInquiry.Proofs.Lookup.Results
import Mathlib.Data.List.Forall2

/-!
# The order in which a plan is carried out

Every history of a plan keeps account of its inquiries: the events behind a place of a phase are
those of one lookup, as far as it has come (`Slot.AllBehind`), and the second phase has its events
behind all of the first one (`Standing.Behind`). One step keeps the account (`Standing.Behind.step`)
and so does a whole history (`History.behind`).

Nothing happens in the second phase before all inquiries of the first one are filled in
(`Standing.Behind.isBarred`), and at the end every inquiry has been looked up exactly once, with the
results of earlier phases and of no sibling (`Standing.Behind.isCarriedOut`). Both hold of
everything that may happen while a plan is carried out, on a clock or not (`phases_in_order`).
-/

set_option autoImplicit false
set_option relaxedAutoImplicit false

namespace AirInquiry

/-! ### Numbers of phases -/

namespace Plan

variable {plan : Plan}

theorem presentSecond_eq_some_iff {phase : Phase} :
    plan.presentSecond = some phase ↔ plan.second = some phase ∧ phase.inquiries ≠ [] := by
  rw [presentSecond, Option.filter_eq_some_iff, Phase.isEmpty, Bool.not_eq_true',
    List.isEmpty_eq_false_iff]

theorem isSome_phase?_iff (number : Nat) :
    (plan.phase? number).isSome = true ↔ 1 ≤ number ∧ number ≤ plan.phaseCount := by
  have hcount := Lookup.phaseCount_cases plan
  match number with
  | 0 => simp [phase?]
  | 1 =>
    have hfirst : (plan.phase? 1).isSome = true := rfl
    simp only [hfirst, true_iff]
    omega
  | 2 =>
    have hsecond : (plan.phase? 2).isSome = true ↔ plan.presentSecond ≠ none :=
      Option.isSome_iff_ne_none
    rw [hsecond]
    rcases hcount with ⟨hnone, hone⟩ | ⟨hsome, htwo⟩
    · simp [hnone, hone]
    · simp [hsome, htwo]
  | _ + 3 =>
    simp only [phase?, Option.isSome_none, Bool.false_eq_true, false_iff]
    omega

theorem phase?_eq_none (plan : Plan) {number : Nat} (hone : number ≠ 1) (htwo : number ≠ 2) :
    plan.phase? number = none := by
  unfold phase?
  split
  · exact absurd rfl hone
  · exact absurd rfl htwo
  · rfl

/-- What relates the first phases and the second ones relates all phases. -/
theorem rel_phase? {related : Nat → Phase → Phase → Prop} {other : Plan}
    (hfirst : related 1 plan.first other.first)
    (hsecond : Option.Rel (related 2) plan.presentSecond other.presentSecond) (number : Nat) :
    Option.Rel (related number) (plan.phase? number) (other.phase? number) := by
  by_cases hone : number = 1
  · subst hone
    exact .some hfirst
  · by_cases htwo : number = 2
    · subst htwo
      exact hsecond
    · rw [plan.phase?_eq_none hone htwo, other.phase?_eq_none hone htwo]
      exact .none

theorem phaseCount_eq_two_iff :
    plan.phaseCount = 2 ↔ ∃ phase, plan.second = some phase ∧ phase.inquiries ≠ [] := by
  have hcount : plan.phaseCount = 2 ↔ ∃ phase, plan.presentSecond = some phase := by
    rw [← Option.ne_none_iff_exists']
    rcases Lookup.phaseCount_cases plan with ⟨hnone, hone⟩ | ⟨hsome, htwo⟩
    · simp [hnone, hone]
    · simp [hsome, htwo]
  simp only [hcount, presentSecond_eq_some_iff]

theorem phaseCount_of_presentSecond {phase : Phase} (h : plan.presentSecond = some phase) :
    plan.phaseCount = 2 := by
  rw [phaseCount, h, Option.isSome_some, if_pos rfl]

end Plan

namespace Lookup

variable {setting : Setting} {prior : Json.Entries} {number place : Nat} {plan : Plan}

/-! ### Deeds of a place -/

/-- The deeds at a place of a phase, in their order. -/
def deedsAt (number place : Nat) (events : List Event) : List Deed :=
  (events.filter fun event ↦ event.phase = number ∧ event.place = place).map Event.deed

theorem deedsAt_append (early late : List Event) :
    deedsAt number place (early ++ late) =
      deedsAt number place early ++ deedsAt number place late := by
  rw [deedsAt, List.filter_append, List.map_append, deedsAt, deedsAt]

theorem deedsAt_append_self (events : List Event) (deed : Deed) :
    deedsAt number place (events ++ [⟨number, place, deed⟩]) =
      deedsAt number place events ++ [deed] := by
  simp [deedsAt]

theorem deedsAt_append_of_ne {other : Nat} (h : other ≠ place) (events : List Event)
    (deed : Deed) :
    deedsAt number place (events ++ [⟨number, other, deed⟩]) = deedsAt number place events := by
  simp [deedsAt, h]

theorem mem_of_mem_deedsAt {events : List Event} {deed : Deed}
    (h : deed ∈ deedsAt number place events) : ⟨number, place, deed⟩ ∈ events := by
  obtain ⟨event, hevent, rfl⟩ := List.mem_map.1 h
  rw [List.mem_filter, decide_eq_true_eq] at hevent
  obtain ⟨hmem, rfl, rfl⟩ := hevent
  exact hmem

/-! ### One phase -/

/-- Every inquiry of a phase was looked up exactly once among the events, and each of them with the
same results of earlier phases. -/
def LooksUp (setting : Setting) (prior : Json.Entries) (number : Nat) (events : List Event)
    (inquiries filled : List Inquiry) : Prop :=
  List.Forall₂ (fun asked result ↦ ∃ turns,
    IsLookup setting prior asked.1 turns (deedsAt number asked.2 events) result)
    inquiries.zipIdx filled

/-- The events are those behind the slots of a phase. -/
structure Slot.AllBehind (setting : Setting) (prior : Json.Entries) (number : Nat)
    (inquiries : List Inquiry) (events : List Event) (slots : List Slot) : Prop where
  length_eq : slots.length = inquiries.length
  behind : ∀ (place : Nat) (inquiry : Inquiry) (slot : Slot), inquiries[place]? = some inquiry →
    slots[place]? = some slot → slot.Behind setting prior inquiry (deedsAt number place events)
  within : ∀ event ∈ events, event.phase = number ∧ event.place < inquiries.length

namespace Slot.AllBehind

variable {inquiries filled : List Inquiry} {events : List Event} {slots : List Slot}

theorem idle : AllBehind setting prior number inquiries [] (inquiries.map .idle) where
  length_eq := List.length_map _
  behind := by
    intro place inquiry slot hinquiry hslot
    rw [List.getElem?_map, hinquiry] at hslot
    cases hslot
    exact ⟨rfl, rfl⟩
  within := by simp

theorem act {slot next : Slot} {deed : Deed}
    (h : AllBehind setting prior number inquiries events slots) (hslot : slots[place]? = some slot)
    (hstep : Slot.Step setting prior slot deed next) :
    AllBehind setting prior number inquiries (events ++ [⟨number, place, deed⟩])
      (slots.set place next) := by
  have hplace : place < slots.length := (List.getElem?_eq_some_iff.1 hslot).1
  refine ⟨by rw [List.length_set, h.length_eq], fun other inquiry moved hinquiry hmoved ↦ ?_,
    fun event hevent ↦ ?_⟩
  · by_cases hother : place = other
    · subst hother
      rw [List.getElem?_set_self hplace] at hmoved
      cases hmoved
      rw [deedsAt_append_self]
      exact hstep.behind (h.behind place inquiry slot hinquiry hslot)
    · rw [List.getElem?_set_ne hother] at hmoved
      rw [deedsAt_append_of_ne hother]
      exact h.behind other inquiry moved hinquiry hmoved
  · rcases List.mem_append.1 hevent with hmem | hmem
    · exact h.within event hmem
    · rw [List.mem_singleton.1 hmem]
      exact ⟨rfl, by rwa [h.length_eq] at hplace⟩

theorem deedsAt_eq_nil {other : Nat} (h : AllBehind setting prior number inquiries events slots)
    (hother : number ≠ other) : deedsAt other place events = [] := by
  have hnone : (events.filter fun event ↦ event.phase = other ∧ event.place = place) = [] := by
    rw [List.filter_eq_nil_iff]
    intro event hevent
    rw [(h.within event hevent).1]
    simp [hother]
  rw [deedsAt, hnone, List.map_nil]

theorem looksUp (h : AllBehind setting prior number inquiries events (filled.map .filled)) :
    LooksUp setting prior number events inquiries filled := by
  have hlength : filled.length = inquiries.length := by rw [← h.length_eq, List.length_map]
  refine List.forall₂_iff_get.2 ⟨by rw [List.length_zipIdx, hlength], fun place hasked hplace ↦ ?_⟩
  rw [List.get_eq_getElem, List.get_eq_getElem, List.getElem_zipIdx, Nat.zero_add]
  refine h.behind place _ (.filled filled[place]) (List.getElem?_eq_getElem _) ?_
  rw [List.getElem?_map, List.getElem?_eq_getElem hplace, Option.map_some]

end Slot.AllBehind

theorem LooksUp.congr {inquiries filled : List Inquiry} {events others : List Event}
    (h : LooksUp setting prior number events inquiries filled)
    (hsame : ∀ place, deedsAt number place others = deedsAt number place events) :
    LooksUp setting prior number others inquiries filled := by
  refine List.Forall₂.imp (fun asked result hlookup ↦ ?_) h
  rwa [hsame]

/-- The end of every lookup of a phase is among its events. -/
theorem LooksUp.exists_fills_mem {inquiries filled : List Inquiry} {events : List Event}
    (h : LooksUp setting prior number events inquiries filled) (hplace : place < inquiries.length) :
    ∃ result, ⟨number, place, .fills result⟩ ∈ events := by
  obtain ⟨hlength, hlookups⟩ := List.forall₂_iff_get.1 h
  have hasked : place < inquiries.zipIdx.length := by rwa [List.length_zipIdx]
  have hfilled : place < filled.length := by rwa [← hlength]
  obtain ⟨turns, hdeeds, -⟩ := hlookups place hasked hfilled
  rw [List.get_eq_getElem, List.getElem_zipIdx, Nat.zero_add] at hdeeds
  have hmem : Deed.fills (filled.get ⟨place, hfilled⟩) ∈ deedsAt number place events := by
    rw [hdeeds]
    exact List.mem_append_right _ (List.mem_singleton.2 rfl)
  exact ⟨_, mem_of_mem_deedsAt hmem⟩

/-! ### Whole plans -/

/-- The results that the inquiries of a phase can see when the plan has been carried out that far:
none in the first phase, and in a later one those of the first phase, merged one after another in
the order of its inquiries. -/
def priorOf (plan : Plan) (number : Nat) : Json.Entries :=
  if number = 1 then [] else mergeAll [] (plan.first.inquiries.map Inquiry.data)

/-- Whatever happens in another phase than the first one happens after all inquiries of the first
one have been filled in. -/
def IsBarred (plan : Plan) (events : List Event) : Prop :=
  ∀ early event late, events = early ++ event :: late → event.phase ≠ 1 →
    ∀ place < plan.first.inquiries.length, ∃ filled, ⟨1, place, .fills filled⟩ ∈ early

/-- The events and the last progress of a plan that has been carried out: the counter stands behind
the last phase, every inquiry of a phase that counts has been looked up exactly once, with the
results that are due to it, and nothing else has happened. -/
structure IsCarriedOut (setting : Setting) (plan : Plan) (events : List Event) (last : Progress) :
    Prop where
  index_eq : last.counter.index = last.counter.count + 1
  count_eq : last.counter.count = plan.phaseCount
  phasesDone_eq : last.phasesDone = plan.phaseCount
  looksUp : ∀ number, Option.Rel (fun asked filled ↦
    LooksUp setting (priorOf last.plan number) number events asked.inquiries filled.inquiries)
    (plan.phase? number) (last.plan.phase? number)
  within : ∀ event ∈ events, ∃ phase, plan.phase? event.phase = some phase ∧
    event.place < phase.inquiries.length

namespace Standing

/-- The events are those behind a standing of a plan. -/
inductive Behind (setting : Setting) (plan : Plan) : List Event → Standing → Prop where
  | start : Behind setting plan [] (.between (.start plan))
  | first {events : List Event} {slots : List Slot}
      (hfirst : Slot.AllBehind setting [] 1 plan.first.inquiries events slots) :
      Behind setting plan events (.during (.start plan) slots)
  | afterFirst {events : List Event} {filled : List Inquiry}
      (hfirst : Slot.AllBehind setting [] 1 plan.first.inquiries events (filled.map .filled)) :
      Behind setting plan events (.between ((Progress.start plan).record ⟨filled⟩))
  | second {early late : List Event} {filled : List Inquiry} {slots : List Slot} {phase : Phase}
      (hphase : plan.presentSecond = some phase)
      (hfirst : Slot.AllBehind setting [] 1 plan.first.inquiries early (filled.map .filled))
      (hsecond : Slot.AllBehind setting (collect [] ⟨filled⟩) 2 phase.inquiries late slots) :
      Behind setting plan (early ++ late) (.during ((Progress.start plan).record ⟨filled⟩) slots)
  | afterSecond {early late : List Event} {filled next : List Inquiry} {phase : Phase}
      (hphase : plan.presentSecond = some phase)
      (hfirst : Slot.AllBehind setting [] 1 plan.first.inquiries early (filled.map .filled))
      (hsecond : Slot.AllBehind setting (collect [] ⟨filled⟩) 2 phase.inquiries late
        (next.map .filled)) :
      Behind setting plan (early ++ late)
        (.between (((Progress.start plan).record ⟨filled⟩).record ⟨next⟩))

variable {events added : List Event} {standing next : Standing} {last : Progress}

theorem Behind.reached (h : (between last).Behind setting plan events) : last.Reached := by
  cases h with
  | start => exact .start plan
  | afterFirst _ => exact .first plan _
  | @afterSecond _ _ filled next phase hphase _ _ =>
    have hopen : ¬ plan.phaseCount < 2 := by
      rw [Plan.phaseCount_of_presentSecond hphase]
      exact Nat.lt_irrefl 2
    exact (Progress.Reached.first plan ⟨filled⟩).record (decide_eq_false hopen) ⟨next⟩

/-- One case for each kind of step. -/
theorem Behind.step (h : standing.Behind setting plan events)
    (hstep : standing.Step setting added next) : next.Behind setting plan (events ++ added) := by
  cases hstep with
  | skip progress hopen hphase => exact absurd hphase (h.reached.phase?_ne_none hopen)
  | enter progress phase hopen hphase =>
    rw [List.append_nil]
    cases h with
    | start =>
      cases hphase
      exact .first .idle
    | @afterFirst _ filled hfirst =>
      have hsome : plan.presentSecond = some phase := hphase
      have hsecond := Behind.second hsome hfirst .idle
      rwa [List.append_nil] at hsecond
    | afterSecond hsome _ _ =>
      have hless : plan.phaseCount < 3 := by
        rw [Plan.phaseCount_of_presentSecond hsome]
        exact Nat.lt_succ_self 2
      exact absurd hless (of_decide_eq_false hopen)
  | act progress hslot hmoved =>
    cases h with
    | first hfirst => exact .first (hfirst.act hslot hmoved)
    | second hphase hfirst hsecond =>
      rw [List.append_assoc]
      exact .second hphase hfirst (hsecond.act hslot hmoved)
  | leave progress filled =>
    rw [List.append_nil]
    cases h with
    | first hfirst => exact .afterFirst hfirst
    | second hphase hfirst hsecond => exact .afterSecond hphase hfirst hsecond

/-- Once all inquiries of the first phase are filled in, anything may happen. -/
theorem isBarred_append {early : List Event} {filled : List Inquiry}
    (h : Slot.AllBehind setting [] 1 plan.first.inquiries early (filled.map .filled))
    (late : List Event) : IsBarred plan (early ++ late) := by
  intro before event after hsplit hphase place hplace
  have hearly : event ∉ early := fun hmem ↦ hphase (h.within event hmem).1
  obtain ⟨result, hresult⟩ := h.looksUp.exists_fills_mem hplace
  refine ⟨result, ?_⟩
  rcases List.append_eq_append_iff.1 hsplit with ⟨middle, rfl, -⟩ | ⟨middle, rfl, hmiddle⟩
  · exact List.mem_append_left _ hresult
  · cases middle with
    | nil => rwa [List.append_nil] at hresult
    | cons other rest =>
      cases hmiddle
      exact absurd (List.mem_append_right _ (.head _)) hearly

theorem Behind.isBarred (h : standing.Behind setting plan events) : IsBarred plan events := by
  cases h with
  | start =>
    intro early event late hsplit
    cases early <;> cases hsplit
  | first hfirst =>
    intro early event late hsplit hphase
    exact absurd (hfirst.within event (by simp [hsplit])).1 hphase
  | afterFirst hfirst =>
    intro early event late hsplit hphase
    exact absurd (hfirst.within event (by simp [hsplit])).1 hphase
  | second _ hfirst _ => exact isBarred_append hfirst _
  | afterSecond _ hfirst _ => exact isBarred_append hfirst _

/-- A plan without a second phase has been carried out when its first one is recorded. -/
theorem isCarriedOut_first {filled : List Inquiry} (hnone : plan.presentSecond = none)
    (hfirst : Slot.AllBehind setting [] 1 plan.first.inquiries events (filled.map .filled)) :
    IsCarriedOut setting plan events ((Progress.start plan).record ⟨filled⟩) := by
  have hone : plan.phaseCount = 1 := by rw [Plan.phaseCount, hnone]; rfl
  have hlast : ({ plan with first := ⟨filled⟩ } : Plan).presentSecond = none := hnone
  refine ⟨congrArg (· + 1) hone.symm, rfl, hone.symm, Plan.rel_phase? hfirst.looksUp ?_,
    fun event hevent ↦ ?_⟩
  · change Option.Rel _ plan.presentSecond ({ plan with first := ⟨filled⟩ } : Plan).presentSecond
    rw [hnone, hlast]
    exact .none
  · obtain ⟨hphase, hplace⟩ := hfirst.within event hevent
    exact ⟨plan.first, by rw [hphase]; rfl, hplace⟩

/-- A plan with a second phase has been carried out when both are recorded. -/
theorem isCarriedOut_second {early late : List Event} {filled next : List Inquiry} {phase : Phase}
    (hphase : plan.presentSecond = some phase)
    (hfirst : Slot.AllBehind setting [] 1 plan.first.inquiries early (filled.map .filled))
    (hsecond : Slot.AllBehind setting (collect [] ⟨filled⟩) 2 phase.inquiries late
      (next.map .filled)) :
    IsCarriedOut setting plan (early ++ late)
      (((Progress.start plan).record ⟨filled⟩).record ⟨next⟩) := by
  have htwo := Plan.phaseCount_of_presentSecond hphase
  have hlookups := hsecond.looksUp
  rw [collect_eq_mergeAll] at hlookups
  have hlast : (⟨⟨filled⟩, some ⟨next⟩⟩ : Plan).presentSecond = some ⟨next⟩ := by
    refine Plan.presentSecond_eq_some_iff.2 ⟨rfl, fun hnil ↦ ?_⟩
    have hempty : phase.inquiries.zipIdx.length = 0 := by
      rw [hlookups.length_eq]
      exact congrArg List.length hnil
    rw [List.length_zipIdx, List.length_eq_zero_iff] at hempty
    exact (Plan.presentSecond_eq_some_iff.1 hphase).2 hempty
  refine ⟨congrArg (· + 1) htwo.symm, rfl, htwo.symm, Plan.rel_phase? ?_ ?_,
    fun event hevent ↦ ?_⟩
  · refine hfirst.looksUp.congr fun place ↦ ?_
    rw [deedsAt_append, hsecond.deedsAt_eq_nil (by decide), List.append_nil]
  · change Option.Rel _ plan.presentSecond (⟨⟨filled⟩, some ⟨next⟩⟩ : Plan).presentSecond
    rw [hphase, hlast]
    refine .some (hlookups.congr fun place ↦ ?_)
    rw [deedsAt_append, hfirst.deedsAt_eq_nil (by decide), List.nil_append]
  · rcases List.mem_append.1 hevent with hmem | hmem
    · obtain ⟨hnumber, hplace⟩ := hfirst.within event hmem
      exact ⟨plan.first, by rw [hnumber]; rfl, hplace⟩
    · obtain ⟨hnumber, hplace⟩ := hsecond.within event hmem
      exact ⟨phase, by rw [hnumber]; exact hphase, hplace⟩

theorem Behind.isCarriedOut (h : (between last).Behind setting plan events)
    (hfinished : last.counter.isFinished = true) : IsCarriedOut setting plan events last := by
  rw [PhaseCounter.isFinished, decide_eq_true_eq] at hfinished
  have hcount := phaseCount_cases plan
  cases h with
  | start =>
    have hless : plan.phaseCount < 1 := hfinished
    omega
  | afterFirst hfirst =>
    have hless : plan.phaseCount < 2 := hfinished
    rcases hcount with ⟨hnone, -⟩ | ⟨-, htwo⟩
    · exact isCarriedOut_first hnone hfirst
    · omega
  | afterSecond hphase hfirst hsecond => exact isCarriedOut_second hphase hfirst hsecond

end Standing

/-- The events of a history are those behind its end. -/
theorem History.behind {events : List Event} {standing : Standing}
    (h : History setting (.between (.start plan)) events standing) :
    standing.Behind setting plan events := by
  generalize hfirst : Standing.between (.start plan) = first at h
  induction h with
  | refl =>
    rw [← hfirst]
    exact .start
  | step _ hstep ih => exact ih.step hstep

/-- A history that stands behind the last phase has carried out the plan. -/
theorem History.isCarriedOut {events : List Event} {last : Progress}
    (h : History setting (.between (.start plan)) events (.between last))
    (hfinished : last.counter.isFinished = true) : IsCarriedOut setting plan events last :=
  h.behind.isCarriedOut hfinished

/-- A number has a phase exactly if it is counted, and a second phase without inquiries does not
count. Whatever the peers reply and however long they take, nothing happens in the second phase
before all inquiries of the first one are filled in, no history goes on for ever, every history can
be brought to its end, and there the plan has been carried out. Carrying out the plan on a clock is
one of the histories, also when it is given up at a deadline, and without a deadline it comes to its
end. -/
theorem phases_in_order {σ : Type} (peers : Peers σ) (setting : Setting) (deadline : Option Nat)
    (plan : Plan) (session : Session σ) :
    (∀ number, (plan.phase? number).isSome = true ↔ 1 ≤ number ∧ number ≤ plan.phaseCount) ∧
    (plan.phaseCount = 2 ↔ ∃ phase, plan.second = some phase ∧ phase.inquiries ≠ []) ∧
    (∀ events standing, History setting (.between (.start plan)) events standing →
      IsBarred plan events ∧
      (∀ last, standing = .between last → last.counter.isFinished = true →
        IsCarriedOut setting plan events last) ∧
      ∃ more last, History setting standing more (.between last) ∧
        IsCarriedOut setting plan (events ++ more) last) ∧
    (WellFounded fun next standing ↦ ∃ events, Standing.Step setting standing events next) ∧
    (∃ events standing, History setting (.between (.start plan)) events standing ∧
      (carryOutPlan peers setting deadline plan session).2.calls =
        session.calls ++ callsOf events ∧
      ∀ last ∈ (carryOutPlan peers setting deadline plan session).1,
        standing = .between last ∧ IsCarriedOut setting plan events last) ∧
    (carryOutPlan peers setting none plan session).1.isSome = true := by
  refine ⟨Plan.isSome_phase?_iff, Plan.phaseCount_eq_two_iff, fun events standing hhistory ↦ ?_,
    Standing.step_wellFounded, ?_, Progress.isSome_run peers setting (.start plan) session⟩
  · refine ⟨hhistory.behind.isBarred, ?_, ?_⟩
    · rintro last rfl hfinished
      exact hhistory.isCarriedOut hfinished
    · obtain ⟨more, last, hmore, hlast⟩ := History.exists_end setting standing
      cases last with
      | between last => exact ⟨more, last, hmore, (hhistory.trans hmore).isCarriedOut hlast⟩
      | during progress slots => exact absurd hlast id
  · obtain ⟨events, standing, hhistory, hcalls, hlast⟩ :=
      exists_history_carryOutPlan peers setting deadline plan session
    refine ⟨events, standing, hhistory, hcalls, fun last hmem ↦ ?_⟩
    obtain ⟨rfl, hfinished⟩ := hlast last hmem
    exact ⟨rfl, hhistory.isCarriedOut hfinished⟩

/-- Constraints are inferred by the language model. -/
def modelSetting : Setting := ⟨Catalog.airQuality, .model, ⟨[]⟩, 4096, "2024-05-01"⟩

/-- The provinces are looked up in two phases, and every reply takes longer than the one before. The
second phase sees the provinces that the first one found. -/
theorem phases_in_order_provinces :
    ∃ events last, History modelSetting (.between (.start provincePlan)) events (.between last) ∧
      (carryOutPlan (provinceReplies.delayed (5 * ·)) modelSetting none provincePlan ⟨0, 0, []⟩).1 =
        some last ∧
      IsBarred provincePlan events ∧ IsCarriedOut modelSetting provincePlan events last ∧
      last.counter.index = 3 ∧ last.phasesDone = 2 ∧
      priorOf last.plan 2 = [("provinces", .array [.string "Hanoi"])] ∧
      ∃ filled, LooksUp modelSetting [("provinces", .array [.string "Hanoi"])] 2 events
        [{ question := "Which ones again?", table := "provinces" }] filled := by
  obtain ⟨-, -, hhistories, -, ⟨events, standing, hhistory, -, hlast⟩, -⟩ :=
    phases_in_order (provinceReplies.delayed (5 * ·)) modelSetting none provincePlan ⟨0, 0, []⟩
  have hrun : (carryOutPlan (provinceReplies.delayed (5 * ·)) modelSetting none provincePlan
      ⟨0, 0, []⟩).1 = some (sequential provinceReplies modelSetting provincePlan) :=
    carryOutPlan_eq_sequential (provinceReplies.govern_delayed (5 * ·)) provincePlan ⟨0, 0, []⟩
  obtain ⟨rfl, hdone⟩ := hlast _ hrun
  have hprior : priorOf (sequential provinceReplies modelSetting provincePlan).plan 2 =
      [("provinces", .array [.string "Hanoi"])] := by rfl
  refine ⟨events, _, hhistory, hrun, (hhistories events _ hhistory).1, hdone, ?_,
    hdone.phasesDone_eq, hprior, ?_⟩
  · rw [hdone.index_eq, hdone.count_eq]
    rfl
  · have hlooksUp := hdone.looksUp 2
    rw [hprior] at hlooksUp
    cases hlooksUp with
    | some hlooksUp => exact ⟨_, hlooksUp⟩

end Lookup

end AirInquiry
