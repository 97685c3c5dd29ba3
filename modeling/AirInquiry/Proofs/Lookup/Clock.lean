import AirInquiry.Proofs.Lookup.History
import AirInquiry.Proofs.Peer.Deadline

/-!
# Runs on one clock are histories

Carrying out a plan on one clock is one of its histories, whatever the peers remember, reply and
take in time, and with or without a deadline (`exists_history_carryOutPlan`): the calls of the
history are those that the session records, in the same order. A run that is not given up leads to
the same end, behind the last phase.

A pool knows a reply as soon as the call is made, while a slot still awaits it; a slot shows a place
of a pool when the place waits with what some reply leaves (`Slot.Shows`).

A deadline changes nothing with peers that reply at once (`RepliesAtOnce.carryOutPlan_eq`).
-/

set_option autoImplicit false
set_option relaxedAutoImplicit false

namespace AirInquiry.Lookup

variable {σ : Type}

/-- What is left of filling in an inquiry when this is left of its lookup. -/
def fillRest (inquiry : Inquiry) (rest : Dialogue Outcome) : Dialogue Inquiry :=
  rest >>= fun outcome ↦ pure (outcome.fillIn inquiry)

theorem fillRest_complete (inquiry : Inquiry) (request : Completion.Request)
    (next : Completion.Reply → Dialogue Outcome) :
    fillRest inquiry (.complete request next) =
      .complete request fun reply ↦ fillRest inquiry (next reply) :=
  rfl

theorem fillRest_post (inquiry : Inquiry) (query : String)
    (next : Transport.Reply → Dialogue Outcome) :
    fillRest inquiry (.post query next) = .post query fun reply ↦ fillRest inquiry (next reply) :=
  rfl

/-- A slot shows what has become of its lookup in a pool. -/
def Slot.Shows : Slot → Place Inquiry → Prop
  | .filled inquiry, .finished result => result = inquiry
  | .busy inquiry (.completing _ next), .waiting _ rest =>
    ∃ reply, rest = fillRest inquiry (next reply)
  | .busy inquiry (.posting _ next), .waiting _ rest =>
    ∃ reply, rest = fillRest inquiry (next reply)
  | _, _ => False

/-- From one session to a later one, exactly the calls among the events are added. -/
def Records (events : List Event) (before after : Session σ) : Prop :=
  after.calls = before.calls ++ callsOf events

theorem Records.of_calls_eq {before after : Session σ} (h : after.calls = before.calls) :
    Records [] before after := by
  rw [Records, h]
  exact (List.append_nil _).symm

theorem Records.trans {early late : List Event} {first second third : Session σ}
    (hfirst : Records early first second) (hsecond : Records late second third) :
    Records (early ++ late) first third := by
  rw [Records, hsecond, hfirst, callsOf_append, List.append_assoc]

/-- A step of the slot between those in front of it and those behind it. -/
theorem History.act {setting : Setting} {progress : Progress} {slot next : Slot} {deed : Deed}
    (front back : List Slot) (h : Slot.Step setting progress.data slot deed next) :
    History setting (.during progress (front ++ slot :: back))
      [⟨progress.counter.index, front.length, deed⟩]
      (.during progress (front ++ next :: back)) := by
  have hslot : (front ++ slot :: back)[front.length]? = some slot := by simp
  have hstep := Standing.Step.act progress hslot h
  rw [List.set_append_right _ _ (Nat.le_refl _), Nat.sub_self, List.set_cons_zero] at hstep
  exact single hstep

section Phase

variable (setting : Setting) (progress : Progress) (peers : Peers σ)

/-! ### Places and slots -/

/-- A lookup that goes on until it has to wait makes steps of its slot. By induction on what is left
of the lookup. -/
theorem exists_history_proceed (inquiry : Inquiry) (rest : Dialogue Outcome)
    (front back : List Slot) (session : Session σ) :
    ∃ events, ∃ slot : Slot, History setting
        (.during progress (front ++ .busy inquiry (.ready rest) :: back)) events
        (.during progress (front ++ slot :: back)) ∧
      slot.Shows ((fillRest inquiry rest).proceed peers session).1 ∧
      Records events session ((fillRest inquiry rest).proceed peers session).2 := by
  induction rest generalizing session with
  | done outcome =>
    exact ⟨_, _, History.act front back (.fill inquiry outcome), rfl, .of_calls_eq rfl⟩
  | complete request next ih =>
    have hask : History setting
        (.during progress (front ++ .busy inquiry (.ready (.complete request next)) :: back)) _ _ :=
      History.act front back (.ask inquiry request next)
    have hcall : Records [⟨progress.counter.index, front.length, .calls (.complete request)⟩]
        session (session.complete peers request).2 := rfl
    rw [fillRest_complete]
    simp only [Dialogue.proceed]
    split
    · obtain ⟨events, slot, hhistory, hshows, hrecords⟩ :=
        ih (session.complete peers request).1.reply (session.complete peers request).2
      have hheard := (History.act front back (.hear inquiry request next _)).trans hhistory
      exact ⟨_, slot, hask.trans hheard, hshows, hcall.trans hrecords⟩
    · exact ⟨_, _, hask, ⟨_, rfl⟩, hcall⟩
  | post query next ih =>
    have hsend : History setting
        (.during progress (front ++ .busy inquiry (.ready (.post query next)) :: back)) _ _ :=
      History.act front back (.send inquiry query next)
    have hcall : Records [⟨progress.counter.index, front.length, .calls (.post query)⟩]
        session (session.post peers query).2 := rfl
    rw [fillRest_post]
    simp only [Dialogue.proceed]
    split
    · obtain ⟨events, slot, hhistory, hshows, hrecords⟩ :=
        ih (session.post peers query).1.reply (session.post peers query).2
      have hheard := (History.act front back (.receive inquiry query next _)).trans hhistory
      exact ⟨_, slot, hsend.trans hheard, hshows, hcall.trans hrecords⟩
    · exact ⟨_, _, hsend, ⟨_, rfl⟩, hcall⟩

/-- Starting the lookups of inquiries in order makes steps of their slots. -/
theorem exists_history_start (inquiries : List Inquiry) (front : List Slot)
    (session : Session σ) :
    ∃ events slots, History setting
        (.during progress (front ++ inquiries.map .idle)) events
        (.during progress (front ++ slots)) ∧
      List.Forall₂ Slot.Shows slots (Pool.inOrder (Dialogue.proceed peers)
        (inquiries.map (fill setting progress.data)) session).1 ∧
      Records events session (Pool.inOrder (Dialogue.proceed peers)
        (inquiries.map (fill setting progress.data)) session).2 := by
  induction inquiries generalizing front session with
  | nil => exact ⟨[], [], .refl _, .nil, .of_calls_eq rfl⟩
  | cons inquiry rest ih =>
    have hbegin : History setting
        (.during progress (front ++ .idle inquiry :: rest.map .idle)) _ _ :=
      History.act front (rest.map .idle) (.begin inquiry)
    obtain ⟨early, slot, hslot, hshows, hrecords⟩ := exists_history_proceed setting progress peers
      inquiry (lookUp setting progress.data inquiry) front (rest.map .idle) session
    have hown : Records (⟨progress.counter.index, front.length, .begins progress.data⟩ :: early)
        session ((fill setting progress.data inquiry).proceed peers session).2 := hrecords
    obtain ⟨late, slots, hslots, hothers, hmore⟩ := ih (front ++ [slot])
      ((fill setting progress.data inquiry).proceed peers session).2
    rw [← List.append_cons, ← List.append_cons] at hslots
    exact ⟨_, slot :: slots, (hbegin.trans hslot).trans hslots, .cons hshows hothers,
      hown.trans hmore⟩

/-- Waking a place makes steps of the slot that shows it. -/
theorem exists_history_wakePlace (now : Nat) {slot : Slot}
    {place : Place Inquiry} (h : slot.Shows place) (front back : List Slot)
    (session : Session σ) :
    ∃ events next, History setting (.during progress (front ++ slot :: back)) events
        (.during progress (front ++ next :: back)) ∧
      next.Shows (Pool.wakePlace peers now place session).1 ∧
      Records events session (Pool.wakePlace peers now place session).2 := by
  unfold Slot.Shows at h
  split at h
  · exact ⟨[], _, .refl _, h, .of_calls_eq rfl⟩
  · next inquiry request next due rest =>
    obtain ⟨reply, rfl⟩ := h
    simp only [Pool.wakePlace]
    split
    · obtain ⟨events, slot, hhistory, hshows, hrecords⟩ := exists_history_proceed setting
        progress peers inquiry (next reply) front back session
      exact ⟨_, slot, (History.act front back (.hear inquiry request next reply)).trans hhistory,
        hshows, hrecords⟩
    · exact ⟨[], _, .refl _, ⟨reply, rfl⟩, .of_calls_eq rfl⟩
  · next inquiry query next due rest =>
    obtain ⟨reply, rfl⟩ := h
    simp only [Pool.wakePlace]
    split
    · obtain ⟨events, slot, hhistory, hshows, hrecords⟩ := exists_history_proceed setting
        progress peers inquiry (next reply) front back session
      exact ⟨_, slot, (History.act front back (.receive inquiry query next reply)).trans hhistory,
        hshows, hrecords⟩
    · exact ⟨[], _, .refl _, ⟨reply, rfl⟩, .of_calls_eq rfl⟩
  · exact absurd h id

/-- Waking the places of a pool in order makes steps of the slots that show them. -/
theorem exists_history_wake (now : Nat) {slots : List Slot}
    {places : List (Place Inquiry)} (h : List.Forall₂ Slot.Shows slots places)
    (front : List Slot) (session : Session σ) :
    ∃ events next, History setting (.during progress (front ++ slots)) events
        (.during progress (front ++ next)) ∧
      List.Forall₂ Slot.Shows next (Pool.inOrder (Pool.wakePlace peers now) places session).1 ∧
      Records events session (Pool.inOrder (Pool.wakePlace peers now) places session).2 := by
  induction h generalizing front session with
  | nil => exact ⟨[], [], .refl _, .nil, .of_calls_eq rfl⟩
  | @cons slot place slots places hshows _ ih =>
    obtain ⟨early, next, hnext, hshown, hrecords⟩ := exists_history_wakePlace setting progress
      peers now hshows front slots session
    obtain ⟨late, others, hothers, hshownOthers, hmore⟩ := ih (front ++ [next])
      (Pool.wakePlace peers now place session).2
    rw [← List.append_cons, ← List.append_cons] at hothers
    exact ⟨_, next :: others, hnext.trans hothers, .cons hshown hshownOthers,
      hrecords.trans hmore⟩

/-- Where no place waits, the slots are filled with the results. -/
theorem eq_map_filled {slots : List Slot} {places : List (Place Inquiry)}
    (h : List.Forall₂ Slot.Shows slots places) (hnone : places.filterMap Place.due? = []) :
    slots = (places.filterMap Place.result?).map .filled := by
  induction h with
  | nil => rfl
  | @cons slot place slots places hshows _ ih =>
    cases place with
    | waiting due rest => cases hnone
    | finished result =>
      have hslot : slot = .filled result := by
        unfold Slot.Shows at hshows
        split at hshows
        · next heq =>
          cases heq
          rw [hshows]
        · next heq => cases heq
        · next heq => cases heq
        · exact absurd hshows id
      rw [hslot, ih hnone]
      rfl

/-! ### Phases and plans -/

/-- Carrying on a pool is a history of the slots that show it. If it is not given up, they are
filled in with the results. -/
theorem exists_history_run (deadline : Option Nat) (pool : Pool Inquiry) (session : Session σ) :
    ∀ slots : List Slot, List.Forall₂ Slot.Shows slots pool.places →
    ∃ events next, History setting (.during progress slots) events (.during progress next) ∧
      Records events session (pool.run peers deadline session).2 ∧
      ∀ results ∈ (pool.run peers deadline session).1, next = results.map .filled := by
  fun_induction Pool.run peers deadline pool session with
  | case1 pool session hnone =>
    intro slots h
    refine ⟨[], slots, .refl _, .of_calls_eq rfl, fun results hresults ↦ ?_⟩
    cases hresults
    exact eq_map_filled h (List.min?_eq_none_iff.1 hnone)
  | case2 pool session due _ hlate =>
    intro slots h
    refine ⟨[], slots, .refl _, .of_calls_eq rfl, fun results hresults ↦ ?_⟩
    cases hresults
  | case3 pool session due _ _ next ih =>
    intro slots h
    obtain ⟨early, woken, hwoken, hshown, hrecords⟩ :=
      exists_history_wake setting progress peers due h [] { session with clock := due }
    have hearly : Records early session (pool.wake peers due { session with clock := due }).2 :=
      hrecords
    obtain ⟨late, last, hlast, hmore, hresults⟩ := ih woken hshown
    exact ⟨_, last, hwoken.trans hlast, hearly.trans hmore, hresults⟩

/-- Carrying out a phase is a history of its slots. -/
theorem exists_history_carryOutPhase (deadline : Option Nat) (phase : Phase)
    (session : Session σ) :
    ∃ events slots, History setting (.during progress (phase.inquiries.map .idle)) events
        (.during progress slots) ∧
      Records events session
        (carryOutPhase peers setting deadline progress.data phase session).2 ∧
      ∀ filled ∈ (carryOutPhase peers setting deadline progress.data phase session).1,
        slots = filled.inquiries.map .filled := by
  obtain ⟨early, slots, hstart, hshows, hrecords⟩ := exists_history_start setting progress peers
    phase.inquiries [] session
  obtain ⟨late, next, hrun, hmore, hresults⟩ := exists_history_run setting progress peers deadline
    (Pool.start peers (phase.inquiries.map (fill setting progress.data)) session).1
    (Pool.start peers (phase.inquiries.map (fill setting progress.data)) session).2 slots hshows
  refine ⟨early ++ late, next, hstart.trans hrun, hrecords.trans hmore, fun filled hfilled ↦ ?_⟩
  obtain ⟨results, hresult, rfl⟩ := Option.map_eq_some_iff.1 hfilled
  exact hresults results hresult

end Phase

/-- Carrying out the phases that are left is a history, and one that is not given up stands behind
the last phase. -/
theorem exists_history_progressRun (peers : Peers σ) (setting : Setting) (deadline : Option Nat)
    (progress : Progress) (session : Session σ) :
    ∃ events standing, History setting (.between progress) events standing ∧
      Records events session (progress.run peers setting deadline session).2 ∧
      ∀ last ∈ (progress.run peers setting deadline session).1,
        standing = .between last ∧ last.counter.isFinished = true := by
  fun_induction Progress.run peers setting deadline progress session with
  | case1 progress session hfinished =>
    refine ⟨[], _, .refl _, .of_calls_eq rfl, fun last hlast ↦ ?_⟩
    cases hlast
    exact ⟨rfl, hfinished⟩
  | case2 progress session hopen hphase ih =>
    obtain ⟨events, standing, hhistory, hrecords, hlast⟩ := ih
    exact ⟨_, standing, (History.single (.skip progress (Bool.eq_false_iff.2 hopen) hphase)).trans
      hhistory, hrecords, hlast⟩
  | case3 progress session hopen phase hphase after hrun =>
    have henter : History setting (.between progress) _ _ :=
      .single (.enter progress phase (Bool.eq_false_iff.2 hopen) hphase)
    obtain ⟨events, slots, hhistory, hrecords, -⟩ := exists_history_carryOutPhase setting progress
      peers deadline phase session
    rw [hrun] at hrecords
    refine ⟨_, _, henter.trans hhistory, hrecords, fun last hlast ↦ ?_⟩
    cases hlast
  | case4 progress session hopen phase hphase filled after hrun ih =>
    have henter : History setting (.between progress) _ _ :=
      .single (.enter progress phase (Bool.eq_false_iff.2 hopen) hphase)
    obtain ⟨early, slots, hhistory, hrecords, hslots⟩ := exists_history_carryOutPhase setting
      progress peers deadline phase session
    rw [hrun] at hrecords hslots
    obtain rfl := hslots filled rfl
    obtain ⟨late, standing, hrest, hmore, hlast⟩ := ih
    have hleave : History setting (.during progress (filled.inquiries.map .filled)) _ _ :=
      .single (.leave progress filled.inquiries)
    exact ⟨_, standing, (henter.trans hhistory).trans (hleave.trans hrest), hrecords.trans hmore,
      hlast⟩

/-- Carrying out a plan on one clock is a history of the plan with the calls of the session, and one
that is not given up stands behind the last phase. -/
theorem exists_history_carryOutPlan (peers : Peers σ) (setting : Setting) (deadline : Option Nat)
    (plan : Plan) (session : Session σ) :
    ∃ events standing, History setting (.between (.start plan)) events standing ∧
      (carryOutPlan peers setting deadline plan session).2.calls =
        session.calls ++ callsOf events ∧
      ∀ last ∈ (carryOutPlan peers setting deadline plan session).1,
        standing = .between last ∧ last.counter.isFinished = true :=
  exists_history_progressRun peers setting deadline (.start plan) session

/-! ### Phase by phase -/

namespace Progress

variable {setting : Setting} {deadline : Option Nat} {progress : Progress}

theorem run_of_isFinished (peers : Peers σ) (h : progress.counter.isFinished = true)
    (session : Session σ) :
    progress.run peers setting deadline session = (some progress, session) := by
  rw [run, if_pos h]

theorem run_of_phase?_eq_none (peers : Peers σ) (h : ¬ progress.counter.isFinished = true)
    (hnone : progress.plan.phase? progress.counter.index = none) (session : Session σ) :
    progress.run peers setting deadline session =
      progress.skip.run peers setting deadline session := by
  rw [run, if_neg h, hnone]

theorem run_of_phase?_eq_some (peers : Peers σ) {phase : Phase}
    (h : ¬ progress.counter.isFinished = true)
    (hphase : progress.plan.phase? progress.counter.index = some phase) (session : Session σ) :
    progress.run peers setting deadline session =
      let after := carryOutPhase peers setting deadline progress.data phase session
      match after.1 with
      | none => (none, after.2)
      | some filled => (progress.record filled).run peers setting deadline after.2 := by
  rw [run, if_neg h, hphase]
  dsimp only
  generalize carryOutPhase peers setting deadline progress.data phase session = after
  obtain ⟨filled, session⟩ := after
  cases filled with
  | none => rfl
  | some filled => rfl

end Progress

/-! ### Peers that reply at once -/

section AtOnce

variable {peers : Peers σ}

/-- Every reply is there as soon as the call is made. -/
structure RepliesAtOnce (peers : Peers σ) : Prop where
  complete : ∀ request memory, (peers.complete request memory).1.delay = 0
  post : ∀ query memory, (peers.post query memory).1.delay = 0

theorem RepliesAtOnce.due?_proceed {α : Type} (h : RepliesAtOnce peers) (dialogue : Dialogue α)
    (session : Session σ) : (dialogue.proceed peers session).1.due? = none := by
  induction dialogue generalizing session with
  | done result => rfl
  | complete request next ih =>
    have hdelay : (session.complete peers request).1.delay = 0 :=
      h.complete request session.memory
    simp only [Dialogue.proceed, hdelay, if_true]
    exact ih _ _
  | post query next ih =>
    have hdelay : (session.post peers query).1.delay = 0 := h.post query session.memory
    simp only [Dialogue.proceed, hdelay, if_true]
    exact ih _ _

theorem RepliesAtOnce.filterMap_due?_inOrder {α : Type} (h : RepliesAtOnce peers)
    (dialogues : List (Dialogue α)) (session : Session σ) :
    (Pool.inOrder (Dialogue.proceed peers) dialogues session).1.filterMap Place.due? = [] := by
  induction dialogues generalizing session with
  | nil => rfl
  | cons dialogue rest ih =>
    simp only [Pool.inOrder, List.filterMap_cons, h.due?_proceed]
    exact ih _

/-- Nothing is awaited, so there is nothing to give up. -/
theorem RepliesAtOnce.runAll_eq {α : Type} (h : RepliesAtOnce peers) (deadline : Option Nat)
    (dialogues : List (Dialogue α)) (session : Session σ) :
    Pool.runAll peers deadline dialogues session = Pool.runAll peers none dialogues session := by
  have hnone : (Pool.start peers dialogues session).1.earliest? = none := by
    rw [Pool.earliest?, List.min?_eq_none_iff]
    exact h.filterMap_due?_inOrder dialogues session
  rw [Pool.runAll, Pool.runAll]
  dsimp only
  rw [Pool.run_of_earliest?_eq_none peers deadline hnone,
    Pool.run_of_earliest?_eq_none peers none hnone]

/-- A deadline changes nothing when all replies are there at once. -/
theorem RepliesAtOnce.carryOutPlan_eq (h : RepliesAtOnce peers) (setting : Setting)
    (deadline : Option Nat) (plan : Plan) (session : Session σ) :
    carryOutPlan peers setting deadline plan session =
      carryOutPlan peers setting none plan session := by
  have hphase : ∀ prior phase (session : Session σ),
      carryOutPhase peers setting deadline prior phase session =
        carryOutPhase peers setting none prior phase session := by
    intro prior phase session
    rw [carryOutPhase, carryOutPhase, h.runAll_eq]
  rw [carryOutPlan, carryOutPlan]
  generalize Progress.start plan = progress
  fun_induction Progress.run peers setting none progress session with
  | case1 progress session hfinished => exact Progress.run_of_isFinished peers hfinished session
  | case2 progress session hopen hnone ih =>
    rw [Progress.run_of_phase?_eq_none peers hopen hnone]
    exact ih
  | case3 progress session hopen phase hsome after hrun =>
    rw [Progress.run_of_phase?_eq_some peers hopen hsome, hphase, hrun]
  | case4 progress session hopen phase hsome filled after hrun ih =>
    rw [Progress.run_of_phase?_eq_some peers hopen hsome, hphase, hrun]
    exact ih

end AtOnce

end AirInquiry.Lookup
