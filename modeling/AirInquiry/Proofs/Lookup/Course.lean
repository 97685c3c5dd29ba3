import AirInquiry.Proofs.Lookup.Order
import AirInquiry.Proofs.Lookup.Posting
import Mathlib.Data.List.Nodup
import Mathlib.Data.Prod.Basic

/-!
# The courses of lookups

A course is one lookup of a history: where it took place, what was asked, the turns, and the inquiry
as it was filled in. A course in which fields were selected posts the query that is built for them,
once, and its findings are those of the reply; no other course posts anything (`reaches_lookUp`).

When a plan has been carried out, its events are those of one course for every inquiry, in the order
of the plan (`IsCarriedOut.exists_courses`). So the queries that were posted are those of the
courses, up to their order (`Course.perm_queries`).
-/

set_option autoImplicit false
set_option relaxedAutoImplicit false

namespace AirInquiry

/-- The queries that are posted in turns, in order. -/
def Turn.queries (turns : List Turn) : List String := Call.queries (turns.map Turn.call)

theorem Turn.queries_append (early late : List Turn) :
    queries (early ++ late) = queries early ++ queries late := by
  rw [queries, List.map_append, Call.queries_append, queries, queries]

theorem Dialogue.Reaches.queries_eq_nil {α : Type} {dialogue : Dialogue α} {turns : List Turn}
    {result : α} {expected : α → Prop} (hturns : dialogue.Reaches turns (.done result))
    (h : dialogue.Ensures PostsNothing expected) : Turn.queries turns = [] := by
  refine Call.queries_eq_nil fun call hcall ↦ ?_
  obtain ⟨turn, hturn, rfl⟩ := List.mem_map.1 hcall
  exact (hturns.of_ensures h).1 turn hturn

namespace Lookup

variable {setting : Setting} {prior : Json.Entries} {number place : Nat} {inquiry : Inquiry}
  {turns : List Turn} {outcome : Outcome}

/-! ### One lookup -/

theorem reaches_lookUpFields {fields : List FieldChoice}
    (h : (lookUpFields setting prior inquiry fields).Reaches turns (.done outcome)) :
    ∃ query constraints reply, query = (Query.build inquiry.table fields constraints).text ∧
      Turn.queries turns = [query] ∧ .post query reply ∈ turns ∧
      outcome = .posted query (findingsOf reply) := by
  obtain ⟨early, later, constraints, rfl, hfind, hrest⟩ := h.exists_of_bind
  obtain ⟨posted, last, findings, rfl, hpost, hdone⟩ := hrest.exists_of_bind
  obtain ⟨rfl, heq⟩ := hdone.of_done
  cases heq
  rw [post_build] at hpost
  cases hpost with
  | post reply hpost =>
    obtain ⟨rfl, heq⟩ := hpost.of_done
    cases heq
    refine ⟨_, constraints, reply, rfl, ?_, by simp, rfl⟩
    rw [Turn.queries_append, hfind.queries_eq_nil (find_postsNothing _ _ _ _ _)]
    rfl

/-- The fields that were selected in the turns of a lookup, if any were. -/
def fieldsIn (setting : Setting) (inquiry : Inquiry) (turns : List Turn) :
    Option (List FieldChoice) :=
  ((select setting.catalog setting.finder.contextLimit inquiry.question inquiry.description
    inquiry.table).result? turns).join

/-- A lookup without a selection posts nothing, and any other one posts its query once. -/
theorem reaches_lookUp (h : (lookUp setting prior inquiry).Reaches turns (.done outcome)) :
    (fieldsIn setting inquiry turns = none ∧ Turn.queries turns = [] ∧ outcome = .unselected) ∨
    ∃ fields query constraints reply, fieldsIn setting inquiry turns = some fields ∧
      query = (Query.build inquiry.table fields constraints).text ∧
      Turn.queries turns = [query] ∧ .post query reply ∈ turns ∧
      outcome = .posted query (findingsOf reply) := by
  obtain ⟨early, late, selection, rfl, hselect, hrest⟩ := h.exists_of_bind
  have hnothing := hselect.queries_eq_nil (select_postsNothing _ _ _ _ _)
  have hfields : fieldsIn setting inquiry (early ++ late) = selection := by
    rw [fieldsIn, hselect.result?_append, Option.join_some]
  cases selection with
  | none =>
    obtain ⟨rfl, heq⟩ := hrest.of_done
    cases heq
    exact .inl ⟨hfields, by rwa [List.append_nil], rfl⟩
  | some fields =>
    obtain ⟨query, constraints, reply, hquery, hqueries, hreply, houtcome⟩ :=
      reaches_lookUpFields hrest
    refine .inr ⟨fields, query, constraints, reply, hfields, hquery, ?_,
      List.mem_append_right _ hreply, houtcome⟩
    rw [Turn.queries_append, hnothing, List.nil_append, hqueries]

/-! ### The courses of a plan -/

/-- A lookup of a history: its place, what was asked, the turns, and the inquiry that was filled in.
-/
structure Course where
  phase : Nat
  place : Nat
  prior : Json.Entries
  asked : Inquiry
  turns : List Turn
  filled : Inquiry

namespace Course

/-- The number of the phase with the place in it. -/
def seat (course : Course) : Nat × Nat := (course.phase, course.place)

/-- The queries that are posted, in order. -/
def queries (course : Course) : List String := Turn.queries course.turns

/-- The fields that are selected, if any are. -/
def fields? (setting : Setting) (course : Course) : Option (List FieldChoice) :=
  fieldsIn setting course.asked course.turns

/-- What happens at the place among the events is the course. -/
def IsAmong (setting : Setting) (events : List Event) (course : Course) : Prop :=
  IsLookup setting course.prior course.asked course.turns
    (deedsAt course.phase course.place events) course.filled

end Course

/-- A list that is looked up item by item. -/
theorem exists_courses {events : List Event} {asked : List (Inquiry × Nat)} {filled : List Inquiry}
    (h : List.Forall₂ (fun asked result ↦ ∃ turns,
      IsLookup setting prior asked.1 turns (deedsAt number asked.2 events) result) asked filled) :
    ∃ courses : List Course, (courses.map fun course ↦ (course.asked, course.place)) = asked ∧
      courses.map Course.filled = filled ∧
      ∀ course ∈ courses, course.phase = number ∧ course.IsAmong setting events := by
  induction h with
  | nil => exact ⟨[], rfl, rfl, by simp⟩
  | @cons first result rest filled hfirst _ ih =>
    obtain ⟨turns, hturns⟩ := hfirst
    obtain ⟨courses, rfl, rfl, hcourses⟩ := ih
    exact ⟨⟨number, first.2, prior, first.1, turns, result⟩ :: courses, rfl, rfl,
      List.forall_mem_cons.2 ⟨⟨rfl, hturns⟩, hcourses⟩⟩

/-- The lookups of a phase have one course for every inquiry, in order, and their seats are all
places of the phase. -/
theorem LooksUp.exists_courses {events : List Event} {inquiries filled : List Inquiry}
    (h : LooksUp setting prior number events inquiries filled) :
    ∃ courses : List Course, courses.map Course.asked = inquiries ∧
      courses.map Course.filled = filled ∧
      courses.map Course.seat = (List.range inquiries.length).map (number, ·) ∧
      ∀ course ∈ courses, course.IsAmong setting events := by
  obtain ⟨courses, hasked, hfilled, hcourses⟩ := Lookup.exists_courses h
  refine ⟨courses, ?_, hfilled, ?_, fun course hcourse ↦ (hcourses course hcourse).2⟩
  · rw [← List.zipIdx_map_fst 0 inquiries, ← hasked, List.map_map]
    rfl
  · rw [List.range_eq_range', ← List.zipIdx_map_snd 0 inquiries, ← hasked, List.map_map,
      List.map_map]
    refine List.map_congr_left fun course hcourse ↦ ?_
    rw [Course.seat, (hcourses course hcourse).1]
    rfl

/-- The inquiries of the second phase, if there is one that counts. -/
def secondInquiries (plan : Plan) : List Inquiry :=
  (plan.presentSecond.map Phase.inquiries).getD []

theorem inquiries_eq_append (plan : Plan) :
    plan.inquiries = plan.first.inquiries ++ secondInquiries plan := by
  rw [secondInquiries]
  cases hsecond : plan.presentSecond with
  | none =>
    rw [inquiries_of_presentSecond_eq_none hsecond]
    exact (List.append_nil _).symm
  | some phase =>
    rw [Plan.inquiries, (Plan.presentSecond_eq_some_iff.1 hsecond).1]

section CarriedOut

variable {plan : Plan} {events : List Event} {last : Progress}

theorem IsCarriedOut.looksUp_first (h : IsCarriedOut setting plan events last) :
    LooksUp setting [] 1 events plan.first.inquiries last.plan.first.inquiries := by
  have hfirst := h.looksUp 1
  cases hfirst with
  | some hlookups => exact hlookups

theorem IsCarriedOut.looksUp_second (h : IsCarriedOut setting plan events last) :
    LooksUp setting (priorOf last.plan 2) 2 events (secondInquiries plan)
      (secondInquiries last.plan) := by
  have hsecond := h.looksUp 2
  simp only [Plan.phase?] at hsecond
  unfold secondInquiries
  cases hplan : plan.presentSecond <;> cases hlast : last.plan.presentSecond <;>
    rw [hplan, hlast] at hsecond <;> cases hsecond
  · exact .nil
  · next hlookups => exact hlookups

theorem IsCarriedOut.seat_mem (h : IsCarriedOut setting plan events last) {event : Event}
    (hevent : event ∈ events) : (event.phase, event.place) ∈
      (List.range plan.first.inquiries.length).map (1, ·) ++
        (List.range (secondInquiries plan).length).map (2, ·) := by
  obtain ⟨phase, hphase, hplace⟩ := h.within event hevent
  have hrange := List.mem_range.2 hplace
  obtain ⟨number, place, deed⟩ := event
  match number, hphase with
  | 1, hfirst =>
    cases hfirst
    exact List.mem_append_left _ (List.mem_map_of_mem hrange)
  | 2, hsecond =>
    have hpresent : plan.presentSecond = some phase := hsecond
    rw [secondInquiries, hpresent]
    exact List.mem_append_right _ (List.mem_map_of_mem hrange)

/-- A plan that has been carried out has one course for every inquiry, in the order of the plan. No
two of them have the same seat, and nothing has happened elsewhere. -/
theorem IsCarriedOut.exists_courses (h : IsCarriedOut setting plan events last) :
    ∃ courses : List Course, courses.map Course.asked = plan.inquiries ∧
      courses.map Course.filled = last.plan.inquiries ∧ (courses.map Course.seat).Nodup ∧
      (∀ event ∈ events, (event.phase, event.place) ∈ courses.map Course.seat) ∧
      ∀ course ∈ courses, course.IsAmong setting events := by
  obtain ⟨early, hasked, hfilled, hseats, hamong⟩ := h.looksUp_first.exists_courses
  obtain ⟨late, hlateAsked, hlateFilled, hlateSeats, hlateAmong⟩ := h.looksUp_second.exists_courses
  have hall : (early ++ late).map Course.seat =
      (List.range plan.first.inquiries.length).map (1, ·) ++
        (List.range (secondInquiries plan).length).map (2, ·) := by
    rw [List.map_append, hseats, hlateSeats]
  refine ⟨early ++ late, ?_, ?_, ?_, fun event hevent ↦ ?_, fun course hcourse ↦ ?_⟩
  · rw [List.map_append, hasked, hlateAsked, inquiries_eq_append]
  · rw [List.map_append, hfilled, hlateFilled, inquiries_eq_append]
  · have hnodup : ∀ number count : Nat, ((List.range count).map (number, ·)).Nodup :=
      fun number count ↦ List.nodup_range.map (Prod.mk_right_injective number)
    rw [hall, List.nodup_append]
    refine ⟨hnodup 1 _, hnodup 2 _, ?_⟩
    intro seat hseat other hother heq
    obtain ⟨place, -, rfl⟩ := List.mem_map.1 hseat
    obtain ⟨next, -, rfl⟩ := List.mem_map.1 hother
    cases heq
  · rw [hall]
    exact h.seat_mem hevent
  · rcases List.mem_append.1 hcourse with hmem | hmem
    · exact hamong course hmem
    · exact hlateAmong course hmem

end CarriedOut

/-! ### The posted queries -/

/-- Items are the same as those of one key after another, up to their order. -/
theorem perm_flatMap_filter {α β : Type} [DecidableEq β] (key : α → β) {keys : List β}
    (hnodup : keys.Nodup) (items : List α) (h : ∀ item ∈ items, key item ∈ keys) :
    items.Perm (keys.flatMap fun one ↦ items.filter fun item ↦ key item = one) := by
  induction keys generalizing items with
  | nil =>
    have hnil : items = [] :=
      List.eq_nil_iff_forall_not_mem.2 fun item hitem ↦ by cases h item hitem
    rw [hnil]
    exact .nil
  | cons first rest ih =>
    obtain ⟨hfirst, hrest⟩ := List.nodup_cons.1 hnodup
    have hothers : ∀ item ∈ items.filter (fun item ↦ !decide (key item = first)),
        key item ∈ rest := by
      intro item hitem
      obtain ⟨hmem, hkey⟩ := List.mem_filter.1 hitem
      rcases List.mem_cons.1 (h item hmem) with heq | hlater
      · simp [heq] at hkey
      · exact hlater
    have hsame : ∀ one ∈ rest,
        (items.filter fun item ↦ !decide (key item = first)).filter (fun item ↦ key item = one) =
          items.filter fun item ↦ key item = one := by
      intro one hone
      rw [List.filter_filter]
      refine List.filter_congr fun item _ ↦ ?_
      have hne : key item = one → key item ≠ first := fun heq hsame ↦ hfirst (by rwa [← hsame, heq])
      by_cases hkey : key item = one
      · simp [hkey, hkey ▸ hne hkey]
      · simp [hkey]
    have hih := ih hrest _ hothers
    rw [List.flatMap_congr hsame] at hih
    rw [List.flatMap_cons]
    exact (List.filter_append_perm _ items).symm.trans (hih.append_left _)

theorem IsLookup.filterMap_call? {deeds : List Deed} {filled : Inquiry}
    (h : IsLookup setting prior inquiry turns deeds filled) :
    deeds.filterMap Deed.call? = turns.map Turn.call := by
  rw [h.1, List.cons_append, List.filterMap_cons, List.filterMap_append, filterMap_call?_turnDeeds]
  exact List.append_nil _

/-- The calls among the events of a seat. -/
theorem Course.IsAmong.callsOf_filter {events : List Event} {course : Course}
    (h : course.IsAmong setting events) :
    callsOf (events.filter fun event ↦ (event.phase, event.place) = course.seat) =
      course.turns.map Turn.call := by
  rw [← h.filterMap_call?, deedsAt, List.filterMap_map]
  simp only [Course.seat, Prod.mk.injEq]
  rfl

/-- The queries that were posted are those of the courses, up to their order. -/
theorem Course.perm_queries {events : List Event} {courses : List Course}
    (hnodup : (courses.map Course.seat).Nodup)
    (hseats : ∀ event ∈ events, (event.phase, event.place) ∈ courses.map Course.seat)
    (hamong : ∀ course ∈ courses, course.IsAmong setting events) :
    (Call.queries (callsOf events)).Perm (courses.flatMap Course.queries) := by
  have hevents := perm_flatMap_filter (fun event : Event ↦ (event.phase, event.place)) hnodup events
    hseats
  have hqueries := (hevents.filterMap fun event ↦ event.deed.call?).filterMap Call.query?
  rw [List.flatMap_map, List.filterMap_flatMap, List.filterMap_flatMap] at hqueries
  rw [List.flatMap_congr fun course hcourse ↦ ?_] at hqueries
  · exact hqueries
  · exact congrArg Call.queries (hamong course hcourse).callsOf_filter

end Lookup

end AirInquiry
