import AirInquiry.Proofs.Lists
import AirInquiry.Proofs.Lookup.Course
import AirInquiry.Responder

/-!
# What is reported of a plan

The queries that are reported are those of the courses in which fields were selected, and the
failures are those of the courses that failed, both in the order of the plan (`areReported`). So the
reported queries are the posted ones, up to their order, whatever the peers do and in whichever
order they reply (`IsCarriedOut.isReported`).

Planning and wording post nothing. A question that cannot be planned leads to no post at all, and
one that is answered in time to a report of exactly the queries that were posted
(`queries_reported`).
-/

set_option autoImplicit false
set_option relaxedAutoImplicit false

namespace AirInquiry

namespace Lookup

variable {setting : Setting} {plan : Plan} {events : List Event}

/-! ### Courses and reports -/

namespace Course

variable {course : Course}

/-- Fields were selected in the course, and the query that is built for them was posted, once. The
inquiry holds this query and what the reply to it has brought. -/
def HasPosted (setting : Setting) (course : Course) (query : String) : Prop :=
  ∃ fields constraints reply, course.fields? setting = some fields ∧
    query = (Query.build course.asked.table fields constraints).text ∧
    course.queries = [query] ∧ .post query reply ∈ course.turns ∧
    course.filled = (Outcome.posted query (findingsOf reply)).fillIn course.asked

/-- No fields were selected in the course, and nothing was posted. -/
structure IsUnselected (setting : Setting) (course : Course) : Prop where
  fields?_eq : course.fields? setting = none
  queries_eq : course.queries = []
  query_eq : course.filled.query = ""
  data_eq : course.filled.data = []
  error_eq : course.filled.error = some "field selection failed"

theorem IsAmong.isUnselected_or_hasPosted (h : course.IsAmong setting events) :
    course.IsUnselected setting ∨ ∃ query, course.HasPosted setting query := by
  obtain ⟨-, outcome, hfilled, hreaches⟩ := h
  rcases reaches_lookUp hreaches with
    ⟨hfields, hqueries, rfl⟩ | ⟨fields, query, constraints, reply, hfields, hquery, hqueries,
      hreply, rfl⟩
  · left
    exact ⟨hfields, hqueries, by rw [hfilled]; rfl, by rw [hfilled]; rfl, by rw [hfilled]; rfl⟩
  · exact .inr ⟨query, fields, constraints, reply, hfields, hquery, hqueries, hreply, hfilled⟩

theorem HasPosted.exists_fields {query : String} (h : course.HasPosted setting query) :
    ∃ fields, course.fields? setting = some fields := by
  obtain ⟨fields, _, _, hfields, _⟩ := h
  exact ⟨fields, hfields⟩

theorem HasPosted.query_eq {query : String} (h : course.HasPosted setting query) :
    course.filled.query = query := by
  obtain ⟨_, _, _, _, _, _, _, hfilled⟩ := h
  rw [hfilled]
  rfl

theorem HasPosted.queries_eq {query : String} (h : course.HasPosted setting query) :
    course.queries = [query] := by
  obtain ⟨_, _, _, _, _, hqueries, _⟩ := h
  exact hqueries

theorem HasPosted.query_isEmpty {query : String} (h : course.HasPosted setting query) :
    query.isEmpty = false := by
  obtain ⟨fields, constraints, reply, hfields, rfl, hposted⟩ := h
  rw [Bool.eq_false_iff]
  intro hempty
  have hblank := isBlankText_query (Query.build course.asked.table fields constraints)
  rw [String.isEmpty_iff.1 hempty] at hblank
  exact absurd hblank (by decide)

theorem IsAmong.table_eq (h : course.IsAmong setting events) :
    course.filled.table = course.asked.table := by
  obtain ⟨_, _, hfilled, _⟩ := h
  rw [hfilled]
  rfl

theorem IsAmong.question_eq (h : course.IsAmong setting events) :
    course.filled.question = course.asked.question := by
  obtain ⟨_, _, hfilled, _⟩ := h
  rw [hfilled]
  rfl

end Course

/-- The queries are those of the courses with a selection and the failures those of the failed
courses, one for each and in their order, and a course without a selection has failed so. -/
structure AreReported (setting : Setting) (courses : List Course) (queries failures : List String) :
    Prop where
  posted : List.Forall₂ (Course.HasPosted setting)
    (courses.filter fun course ↦ (course.fields? setting).isSome) queries
  unselected : ∀ course ∈ courses, course.fields? setting = none → course.IsUnselected setting
  failed : List.Forall₂ (fun course text ↦ ∃ error, course.filled.error = some error ∧
      text = "[" ++ course.asked.table ++ "] " ++ course.asked.question ++ ": " ++ error)
    (courses.filter fun course ↦ course.filled.hasFailed) failures

/-- The query that is reported of a course, if one is. -/
def Course.reported? (course : Course) : Option String :=
  Option.guard (fun query ↦ !query.isEmpty) course.filled.query

theorem Course.IsUnselected.reported?_eq {course : Course} (h : course.IsUnselected setting) :
    course.reported? = none := by
  rw [reported?, h.query_eq]
  rfl

theorem Course.HasPosted.reported?_eq {course : Course} {query : String}
    (h : course.HasPosted setting query) : course.reported? = some query := by
  rw [reported?, h.query_eq, Option.guard_eq_some_iff]
  exact ⟨rfl, by rw [h.query_isEmpty]; rfl⟩

section Courses

variable {courses : List Course} {filled : Plan}

theorem queries_eq_filterMap (h : courses.map Course.filled = filled.inquiries) :
    filled.queries = courses.filterMap Course.reported? := by
  rw [Plan.queries, ← h, ← List.filterMap_eq_filter, List.filterMap_map, List.filterMap_map]
  rfl

/-- The courses with a selection are those of which a query is reported. -/
theorem forall₂_hasPosted (h : ∀ course ∈ courses, course.IsAmong setting events) :
    List.Forall₂ (Course.HasPosted setting)
      (courses.filter fun course ↦ (course.fields? setting).isSome)
      (courses.filterMap Course.reported?) := by
  refine forall₂_filter_filterMap fun course hcourse ↦ ?_
  rcases (h course hcourse).isUnselected_or_hasPosted with hunselected | ⟨query, hposted⟩
  · left
    exact ⟨by rw [hunselected.fields?_eq, Option.isSome_none], hunselected.reported?_eq⟩
  · obtain ⟨fields, hfields⟩ := hposted.exists_fields
    exact .inr ⟨query, by rw [hfields, Option.isSome_some], hposted.reported?_eq, hposted⟩

/-- The failed courses are those of which a failure is reported. -/
theorem forall₂_failed (h : ∀ course ∈ courses, course.IsAmong setting events) :
    List.Forall₂ (fun course text ↦ ∃ error, course.filled.error = some error ∧
        text = "[" ++ course.asked.table ++ "] " ++ course.asked.question ++ ": " ++ error)
      (courses.filter fun course ↦ course.filled.hasFailed)
      (courses.filterMap fun course ↦
        course.filled.error.map (Plan.failureText course.filled)) := by
  refine forall₂_filter_filterMap fun course hcourse ↦ ?_
  rw [Inquiry.hasFailed]
  cases course.filled.error with
  | none => exact .inl ⟨rfl, rfl⟩
  | some error =>
    refine .inr ⟨_, rfl, rfl, error, rfl, ?_⟩
    rw [Plan.failureText, (h course hcourse).table_eq, (h course hcourse).question_eq]

/-- What is posted in all courses is what is reported of them. -/
theorem flatMap_queries (h : ∀ course ∈ courses, course.IsAmong setting events) :
    courses.flatMap Course.queries = courses.filterMap Course.reported? := by
  rw [List.filterMap_eq_flatMap_toList]
  refine List.flatMap_congr fun course hcourse ↦ ?_
  rcases (h course hcourse).isUnselected_or_hasPosted with hunselected | ⟨query, hposted⟩
  · rw [hunselected.queries_eq, hunselected.reported?_eq]
    rfl
  · rw [hposted.queries_eq, hposted.reported?_eq]
    rfl

theorem areReported (h : ∀ course ∈ courses, course.IsAmong setting events)
    (hfilled : courses.map Course.filled = filled.inquiries) :
    AreReported setting courses filled.queries filled.failures := by
  refine ⟨?_, fun course hcourse hnone ↦ ?_, ?_⟩
  · rw [queries_eq_filterMap hfilled]
    exact forall₂_hasPosted h
  · rcases (h course hcourse).isUnselected_or_hasPosted with hunselected | ⟨query, hposted⟩
    · exact hunselected
    · obtain ⟨fields, hfields⟩ := hposted.exists_fields
      rw [hnone] at hfields
      cases hfields
  · rw [Plan.failures, ← hfilled, List.filterMap_map]
    exact forall₂_failed h

end Courses

/-- What is reported of a plan that was carried out: there is one course for every inquiry in the
order of the plan, the courses are reported, and the reported queries are those that were posted, up
to their order. -/
def IsReported (setting : Setting) (plan : Plan) (events : List Event)
    (queries failures : List String) : Prop :=
  ∃ courses : List Course, courses.map Course.asked = plan.inquiries ∧
    (∀ course ∈ courses, course.IsAmong setting events) ∧
    AreReported setting courses queries failures ∧ (Call.queries (callsOf events)).Perm queries

theorem IsCarriedOut.isReported {last : Progress} (h : IsCarriedOut setting plan events last) :
    IsReported setting plan events last.plan.queries last.plan.failures := by
  obtain ⟨courses, hasked, hfilled, hnodup, hseats, hamong⟩ := h.exists_courses
  refine ⟨courses, hasked, hamong, areReported hamong hfilled, ?_⟩
  rw [queries_eq_filterMap hfilled, ← flatMap_queries hamong]
  exact Course.perm_queries hnodup hseats hamong

end Lookup

/-! ### Answers -/

namespace Responder

open Lookup

variable {σ : Type} {peers : Peers σ} {responder : Responder} {question : String}
  {session : Session σ} {plan : Plan} {last : Progress}

/-- The plan for a question, if one can be made, and the session behind planning. -/
def planned (peers : Peers σ) (responder : Responder) (question : String) (session : Session σ) :
    Except Plan.Error Plan × Session σ :=
  (Plan.make responder.setting.catalog responder.setting.finder.today question).run peers session

/-- Carries out a plan made at the time of the session, unless the time limit comes first. -/
def carried (peers : Peers σ) (responder : Responder) (plan : Plan) (session : Session σ) :
    Option Progress × Session σ :=
  carryOutPlan peers responder.setting (some (responder.deadline session.clock)) plan session

theorem answer_eq (peers : Peers σ) (responder : Responder) (question : String)
    (session : Session σ) :
    responder.answer peers question session =
      match (planned peers responder question session).1 with
      | .error error => (unplanned error, (planned peers responder question session).2)
      | .ok plan =>
        let after := carried peers responder plan (planned peers responder question session).2
        match after.1 with
        | none => (responder.timedOut, after.2)
        | some last => responder.conclude peers question last after.2 := by
  unfold answer planned carried
  generalize (Plan.make responder.setting.catalog responder.setting.finder.today question).run peers
    session = made
  obtain ⟨planned, session⟩ := made
  cases planned with
  | error error => rfl
  | ok plan =>
    dsimp only
    generalize carryOutPlan peers responder.setting (some (responder.deadline session.clock)) plan
      session = after
    obtain ⟨carried, session⟩ := after
    cases carried with
    | none => rfl
    | some last => rfl

theorem answer_of_error {error : Plan.Error}
    (h : (planned peers responder question session).1 = .error error) :
    responder.answer peers question session =
      (unplanned error, (planned peers responder question session).2) := by
  rw [answer_eq, h]

theorem answer_of_late (hplan : (planned peers responder question session).1 = .ok plan)
    (hlate : (carried peers responder plan (planned peers responder question session).2).1 =
      none) :
    responder.answer peers question session = (responder.timedOut,
      (carried peers responder plan (planned peers responder question session).2).2) := by
  rw [answer_eq, hplan]
  dsimp only
  rw [hlate]

theorem answer_of_carried (hplan : (planned peers responder question session).1 = .ok plan)
    (hlast : (carried peers responder plan (planned peers responder question session).2).1 =
      some last) :
    responder.answer peers question session = responder.conclude peers question last
      (carried peers responder plan (planned peers responder question session).2).2 := by
  rw [answer_eq, hplan]
  dsimp only
  rw [hlast]

/-- Planning posts nothing. -/
theorem exists_planned_calls (peers : Peers σ) (responder : Responder) (question : String)
    (session : Session σ) : ∃ added,
      (planned peers responder question session).2.calls = session.calls ++ added ∧
        Call.queries added = [] := by
  unfold planned
  exact ((Plan.make_postsNothing _ _ _).run peers session).2.exists_queries_eq_nil

/-- Carrying out a plan in time is one of its histories. -/
theorem exists_history_carried {last : Progress}
    (h : (carried peers responder plan session).1 = some last) :
    ∃ events, History responder.setting (.between (.start plan)) events (.between last) ∧
      (carried peers responder plan session).2.calls = session.calls ++ callsOf events ∧
      last.counter.isFinished = true := by
  unfold carried at h ⊢
  obtain ⟨events, standing, hhistory, hcalls, hend⟩ := exists_history_carryOutPlan peers
    responder.setting (some (responder.deadline session.clock)) plan session
  obtain ⟨rfl, hfinished⟩ := hend last h
  exact ⟨events, hhistory, hcalls, hfinished⟩

/-- Wording the answer posts nothing. -/
theorem exists_concluded_calls (peers : Peers σ) (responder : Responder) (question : String)
    (last : Progress) (session : Session σ) : ∃ added,
      (responder.conclude peers question last session).2.calls = session.calls ++ added ∧
        Call.queries added = [] :=
  ((Answer.compose_postsNothing _ _ _ _ _).run peers session).2.exists_queries_eq_nil

/-- When there is no plan nothing is posted. When there is one and the run does not time out, the
reported queries are exactly the posted ones, up to their order. They stand in the order of the
plan, one for every inquiry for which fields were selected, and so do the failures, one for every
inquiry that failed; any other inquiry has posted nothing. This holds of every history of the plan.
No query that is built is blank. -/
theorem queries_reported (peers : Peers σ) (responder : Responder) (question : String)
    (session : Session σ) :
    (∀ plan events last, History responder.setting (.between (.start plan)) events (.between last) →
      last.counter.isFinished = true →
      IsReported responder.setting plan events last.plan.queries last.plan.failures) ∧
    (∀ table fields constraints,
      Text.isBlankText (Query.build table fields constraints).text = false) ∧
    (∀ error, (planned peers responder question session).1 = .error error →
      ∃ added, (responder.answer peers question session).2.calls = session.calls ++ added ∧
        Call.queries added = []) ∧
    ∀ plan last, (planned peers responder question session).1 = .ok plan →
      (carried peers responder plan (planned peers responder question session).2).1 = some last →
      ∃ added events, (responder.answer peers question session).2.calls = session.calls ++ added ∧
        History responder.setting (.between (.start plan)) events (.between last) ∧
        Call.queries added = Call.queries (callsOf events) ∧
        IsReported responder.setting plan events (responder.answer peers question session).1.queries
          (responder.answer peers question session).1.errors := by
  obtain ⟨asked, hasked, hnothing⟩ := exists_planned_calls peers responder question session
  refine ⟨fun plan events last hhistory hfinished ↦ (hhistory.isCarriedOut hfinished).isReported,
    fun table fields constraints ↦ isBlankText_query _, fun error herror ↦ ?_,
    fun plan last hplan hlast ↦ ?_⟩
  · rw [answer_of_error herror]
    dsimp only
    exact ⟨asked, hasked, hnothing⟩
  · obtain ⟨events, hhistory, hcarried, hfinished⟩ := exists_history_carried hlast
    obtain ⟨worded, hworded, hsilent⟩ := exists_concluded_calls peers responder question last
      (carried peers responder plan (planned peers responder question session).2).2
    rw [answer_of_carried hplan hlast]
    refine ⟨asked ++ callsOf events ++ worded, events, ?_, hhistory, ?_,
      (hhistory.isCarriedOut hfinished).isReported⟩
    · rw [hworded, hcarried, hasked]
      simp only [List.append_assoc]
    · rw [Call.queries_append, Call.queries_append, hnothing, hsilent, List.nil_append,
        List.append_nil]

/-- A planner with the provinces in two phases, a model that selects names, and a data service that
knows one province. -/
def plannedReplies : Replies where
  complete := fun request ↦
    if request.target.name = "todo_list" then .ok provincePlan.toJson
    else .ok (.object [("name", .bool true)])
  post := provinceReplies.post

/-- The peers that give these replies at once. -/
def plannedPeers : Peers Nat := plannedReplies.delayed fun _ ↦ 0

theorem repliesAtOnce_plannedPeers : RepliesAtOnce plannedPeers where
  complete := fun _ _ ↦ rfl
  post := fun _ _ ↦ rfl

/-- The provinces are asked for with a time limit of one second. They are posted and reported in
both phases, and the roads, which are not known, are reported as failed. -/
theorem queries_reported_provinces :
    ∃ plan last added events,
      (planned plannedPeers ⟨modelSetting, 1000000⟩ "provinces" ⟨0, 0, []⟩).1 = .ok plan ∧
      (carried plannedPeers ⟨modelSetting, 1000000⟩ plan
        (planned plannedPeers ⟨modelSetting, 1000000⟩ "provinces" ⟨0, 0, []⟩).2).1 = some last ∧
      (answer plannedPeers ⟨modelSetting, 1000000⟩ "provinces" ⟨0, 0, []⟩).2.calls = added ∧
      History modelSetting (.between (.start plan)) events (.between last) ∧
      Call.queries added = Call.queries (callsOf events) ∧
      IsReported modelSetting plan events
        (answer plannedPeers ⟨modelSetting, 1000000⟩ "provinces" ⟨0, 0, []⟩).1.queries
        (answer plannedPeers ⟨modelSetting, 1000000⟩ "provinces" ⟨0, 0, []⟩).1.errors ∧
      (answer plannedPeers ⟨modelSetting, 1000000⟩ "provinces" ⟨0, 0, []⟩).1.queries =
        List.replicate 2 "query \x7b\n  provinces \x7b\n    id name\n  \x7d\n\x7d" ∧
      (answer plannedPeers ⟨modelSetting, 1000000⟩ "provinces" ⟨0, 0, []⟩).1.errors =
        ["[roads] Which roads?: field selection failed"] := by
  have hplanned : (planned plannedPeers ⟨modelSetting, 1000000⟩ "provinces" ⟨0, 0, []⟩).1 =
      .ok provincePlan := by rfl
  have hlast : (carried plannedPeers ⟨modelSetting, 1000000⟩ provincePlan
      (planned plannedPeers ⟨modelSetting, 1000000⟩ "provinces" ⟨0, 0, []⟩).2).1 =
      some (sequential plannedReplies modelSetting provincePlan) := by
    rw [carried, repliesAtOnce_plannedPeers.carryOutPlan_eq]
    exact carryOutPlan_eq_sequential (plannedReplies.govern_delayed fun _ ↦ 0) provincePlan _
  obtain ⟨added, events, hcalls, hhistory, hqueries, hreported⟩ :=
    (queries_reported plannedPeers ⟨modelSetting, 1000000⟩ "provinces" ⟨0, 0, []⟩).2.2.2 _ _
      hplanned hlast
  refine ⟨provincePlan, _, added, events, hplanned, hlast, hcalls, hhistory, hqueries, hreported,
    ?_⟩
  rw [answer_of_carried hplanned hlast]
  exact ⟨rfl, rfl⟩

end Responder

end AirInquiry
