import AirInquiry.Lookup.Progress
import AirInquiry.Proofs.Json.Entries
import Mathlib.Data.List.Induction

/-!
# What collected results hold

Merging works table by table: what the collected results hold for a table is what comes of the
table's own values, one after another (`get?_merge`, `get?_collect`).

As long as only lists come, the rows of all of them are kept in order (`mergeValues_of_lists`). A
value that is no list ends what was collected before it: only rows that come later are left then
(`isSuffix_of_mergeValues`).
-/

set_option autoImplicit false
set_option relaxedAutoImplicit false

namespace AirInquiry

namespace Lookup

variable {table : String}

/-- The values that results hold for a table. Where no key is repeated there is at most one. -/
def valuesFor (table : String) (data : Json.Entries) : List Json :=
  (data.filter fun entry ↦ entry.1 = table).map Prod.snd

theorem valuesFor_cons_self (value : Json) (rest : Json.Entries) :
    valuesFor table ((table, value) :: rest) = value :: valuesFor table rest := by
  rw [valuesFor, List.filter_cons_of_pos (by simp), List.map_cons, valuesFor]

theorem valuesFor_cons_of_ne {other : String} (h : table ≠ other) (value : Json)
    (rest : Json.Entries) : valuesFor table ((other, value) :: rest) = valuesFor table rest := by
  rw [valuesFor, List.filter_cons_of_neg (by simpa using h.symm), valuesFor]

/-- The value of a table after several newer ones. -/
def mergeValues (older : Option Json) (values : List Json) : Option Json :=
  values.foldl (fun older newer ↦ some (mergeValue older newer)) older

theorem mergeValues_append (older : Option Json) (first second : List Json) :
    mergeValues older (first ++ second) = mergeValues (mergeValues older first) second :=
  List.foldl_append

theorem get?_mergeEntry_self (collected : Json.Entries) (value : Json) :
    (mergeEntry collected (table, value)).get? table =
      some (mergeValue (collected.get? table) value) :=
  Json.Entries.get?_insert_self table _ collected

theorem get?_mergeEntry_of_ne {other : String} (h : table ≠ other) (collected : Json.Entries)
    (value : Json) : (mergeEntry collected (other, value)).get? table = collected.get? table :=
  Json.Entries.get?_insert_of_ne h _ collected

/-- Merging leaves a table to its own values. -/
theorem get?_merge (collected newer : Json.Entries) :
    (merge collected newer).get? table =
      mergeValues (collected.get? table) (valuesFor table newer) := by
  induction newer generalizing collected with
  | nil => rfl
  | cons entry rest ih =>
    obtain ⟨other, value⟩ := entry
    have hstep : (merge collected ((other, value) :: rest)).get? table =
        mergeValues ((mergeEntry collected (other, value)).get? table) (valuesFor table rest) :=
      ih _
    rw [hstep]
    by_cases hother : table = other
    · subst hother
      rw [get?_mergeEntry_self, valuesFor_cons_self]
      rfl
    · rw [get?_mergeEntry_of_ne hother, valuesFor_cons_of_ne hother]

theorem get?_collect (collected : Json.Entries) (phase : Phase) :
    (collect collected phase).get? table = mergeValues (collected.get? table)
      (phase.inquiries.flatMap fun item ↦ valuesFor table item.data) := by
  obtain ⟨items⟩ := phase
  induction items generalizing collected with
  | nil => rfl
  | cons item rest ih =>
    have hstep : (collect collected ⟨item :: rest⟩).get? table =
        mergeValues ((merge collected item.data).get? table)
          (rest.flatMap fun item ↦ valuesFor table item.data) := ih _
    rw [hstep, get?_merge, List.flatMap_cons, mergeValues_append]

/-! ### Lists -/

/-- The rows of a list. -/
def rowsOf (value : Json) : List Json := value.asArray?.getD []

/-- The value is a list. -/
def IsList (value : Json) : Prop := value.asArray?.isSome = true

instance : DecidablePred IsList := fun value ↦
  inferInstanceAs (Decidable (value.asArray?.isSome = true))

theorem isList_iff {value : Json} : IsList value ↔ ∃ rows, value = .array rows := by
  constructor
  · intro h
    cases value with
    | array rows => exact ⟨rows, rfl⟩
    | _ => cases h
  · rintro ⟨rows, rfl⟩
    rfl

theorem mergeValues_of_lists {values : List Json} (h : ∀ value ∈ values, IsList value)
    (items : List Json) : mergeValues (some (.array items)) values =
      some (.array (items ++ values.flatMap rowsOf)) := by
  induction values generalizing items with
  | nil => simp [mergeValues]
  | cons value rest ih =>
    rw [List.forall_mem_cons] at h
    obtain ⟨rows, rfl⟩ := isList_iff.1 h.1
    have hstep : mergeValues (some (.array items)) (.array rows :: rest) =
        mergeValues (some (.array (items ++ rows))) rest := rfl
    rw [hstep, ih h.2, List.flatMap_cons, List.append_assoc]
    rfl

theorem exists_mergeValue_array (older : Option Json) (rows : List Json) :
    ∃ items, mergeValue older (.array rows) = .array (items ++ rows) := by
  unfold mergeValue
  split
  · next older newer heq =>
    cases heq
    exact ⟨older, rfl⟩
  · next heq => cases heq
  · exact ⟨[], rfl⟩

/-- Values of which the first is a list take the older value along or not, and keep all their rows.
-/
theorem exists_mergeValues_of_lists (older : Option Json) {values : List Json}
    (h : ∀ value ∈ values, IsList value) (hne : values ≠ []) :
    ∃ items, mergeValues older values = some (.array (items ++ values.flatMap rowsOf)) := by
  cases values with
  | nil => exact absurd rfl hne
  | cons value rest =>
    rw [List.forall_mem_cons] at h
    obtain ⟨rows, rfl⟩ := isList_iff.1 h.1
    obtain ⟨items, hitems⟩ := exists_mergeValue_array older rows
    have hstep : mergeValues older (.array rows :: rest) =
        mergeValues (some (mergeValue older (.array rows))) rest := rfl
    refine ⟨items, ?_⟩
    rw [hstep, hitems, mergeValues_of_lists h.2, List.flatMap_cons, List.append_assoc]
    rfl

theorem isList_of_mergeValue {older : Option Json} {newer : Json}
    (h : IsList (mergeValue older newer)) : IsList newer := by
  unfold mergeValue at h
  split at h
  · rfl
  · cases h
  · exact h

/-- After a value that is no list, a list can only hold the rows of values that came with it. By
induction from the last value on. -/
theorem isSuffix_of_mergeValues {older : Option Json} {values items : List Json}
    (h : mergeValues older values = some (.array items))
    (hvalues : ¬ ∀ value ∈ values, IsList value) : items <:+ values.flatMap rowsOf := by
  induction values using List.reverseRecOn generalizing items with
  | nil => exact absurd (List.forall_mem_nil _) hvalues
  | append_singleton rest last ih =>
    rw [mergeValues_append] at h
    have hlast : mergeValue (mergeValues older rest) last = .array items := Option.some.inj h
    obtain ⟨rows, rfl⟩ := isList_iff.1 (isList_of_mergeValue (isList_iff.2 ⟨items, hlast⟩))
    have hrest : ¬ ∀ value ∈ rest, IsList value := by
      intro hrest
      refine hvalues fun value hvalue ↦ ?_
      rcases List.mem_append.1 hvalue with hmem | hmem
      · exact hrest value hmem
      · exact isList_iff.2 ⟨rows, List.mem_singleton.1 hmem⟩
    have hrows : rowsOf (.array rows) = rows := rfl
    rw [List.flatMap_append, List.flatMap_singleton, hrows]
    unfold mergeValue at hlast
    split at hlast
    · next older newer hmerged heq =>
      cases heq
      cases hlast
      obtain ⟨front, hfront⟩ := ih hmerged hrest
      exact ⟨front, by rw [← List.append_assoc, hfront]⟩
    · cases hlast
    · cases hlast
      exact List.suffix_append _ _

/-! ### Whole plans -/

theorem collect_append (collected : Json.Entries) (first second : List Inquiry) :
    collect collected ⟨first ++ second⟩ = collect (collect collected ⟨first⟩) ⟨second⟩ :=
  List.foldl_append

theorem inquiries_of_presentSecond_eq_none {plan : Plan} (h : plan.presentSecond = none) :
    plan.inquiries = plan.first.inquiries := by
  obtain ⟨first, second⟩ := plan
  cases second with
  | none => exact List.append_nil _
  | some phase =>
    obtain ⟨items⟩ := phase
    cases items with
    | nil => exact List.append_nil _
    | cons item rest => cases h

theorem phaseCount_cases (plan : Plan) :
    plan.presentSecond = none ∧ plan.phaseCount = 1 ∨
      plan.presentSecond ≠ none ∧ plan.phaseCount = 2 := by
  unfold Plan.phaseCount
  cases plan.presentSecond with
  | none => exact .inl ⟨rfl, rfl⟩
  | some phase => exact .inr ⟨Option.some_ne_none phase, rfl⟩

namespace Progress

/-- The progress of a plan at its start, after its first phase, and after a second one. -/
inductive Reached : Progress → Prop where
  | start (plan : Plan) : Reached (start plan)
  | first (plan : Plan) (filled : Phase) :
      Reached ⟨{ plan with first := filled }, ⟨2, plan.phaseCount⟩, collect [] filled, 1⟩
  | second (filled next : Phase) :
      Reached ⟨⟨filled, some next⟩, ⟨3, 2⟩, collect (collect [] filled) next, 2⟩

variable {progress : Progress}

theorem Reached.record (h : Reached progress) (hopen : progress.counter.isFinished = false)
    (filled : Phase) : Reached (progress.record filled) := by
  rw [PhaseCounter.isFinished, decide_eq_false_iff_not] at hopen
  cases h with
  | start plan => exact .first plan filled
  | first plan phase =>
    have hcount : plan.phaseCount = 2 := by
      rcases phaseCount_cases plan with ⟨-, hone⟩ | ⟨-, htwo⟩
      · exact absurd (Nat.lt_succ_of_le (Nat.le_of_eq hone)) hopen
      · exact htwo
    rw [Progress.record]
    dsimp only [PhaseCounter.next]
    rw [hcount]
    exact .second phase filled
  | second phase next => exact absurd (Nat.lt_succ_self 2) hopen

/-- A number of the counter has a phase. -/
theorem Reached.phase?_ne_none (h : Reached progress)
    (hopen : progress.counter.isFinished = false) :
    progress.plan.phase? progress.counter.index ≠ none := by
  rw [PhaseCounter.isFinished, decide_eq_false_iff_not] at hopen
  cases h with
  | start plan => exact Option.some_ne_none _
  | first plan phase =>
    rcases phaseCount_cases plan with ⟨-, hone⟩ | ⟨hsecond, -⟩
    · exact absurd (Nat.lt_succ_of_le (Nat.le_of_eq hone)) hopen
    · exact hsecond
  | second phase next => exact absurd (Nat.lt_succ_self 2) hopen

theorem run_reached {σ : Type} (peers : Peers σ) (setting : Setting) (deadline : Option Nat)
    (h : Reached progress) (session : Session σ) :
    ∀ last ∈ (progress.run peers setting deadline session).1,
      Reached last ∧ last.counter.isFinished = true := by
  fun_induction run peers setting deadline progress session with
  | case1 progress session hfinished =>
    intro last hlast
    cases hlast
    exact ⟨h, hfinished⟩
  | case2 progress session hopen hnone ih =>
    exact absurd hnone (h.phase?_ne_none (Bool.eq_false_iff.2 hopen))
  | case3 =>
    intro last hlast
    cases hlast
  | case4 progress session hopen phase _ filled after _ ih =>
    exact ih (h.record (Bool.eq_false_iff.2 hopen) filled)

/-- At the end the data is what the inquiries of the plan have brought, in order. -/
theorem Reached.data_eq (h : Reached progress) (hfinished : progress.counter.isFinished = true) :
    progress.data = collect [] ⟨progress.plan.inquiries⟩ := by
  rw [PhaseCounter.isFinished, decide_eq_true_eq] at hfinished
  cases h with
  | start plan =>
    have hcount : plan.phaseCount < 1 := hfinished
    rcases phaseCount_cases plan with ⟨-, hone⟩ | ⟨-, htwo⟩ <;> omega
  | first plan filled =>
    have hcount : plan.phaseCount < 2 := hfinished
    have hsecond : ({ plan with first := filled } : Plan).presentSecond = none := by
      rcases phaseCount_cases plan with ⟨hnone, -⟩ | ⟨-, htwo⟩
      · exact hnone
      · omega
    rw [inquiries_of_presentSecond_eq_none hsecond]
  | second filled next => exact (collect_append [] _ _).symm

end Progress

/-- Whatever the peers do, the data of a plan is what its inquiries have brought, in order. -/
theorem data_completePlan {σ : Type} (peers : Peers σ) (setting : Setting) (plan : Plan)
    (session : Session σ) :
    (completePlan peers setting plan session).1.data =
      collect [] ⟨(completePlan peers setting plan session).1.plan.inquiries⟩ := by
  obtain ⟨hreached, hfinished⟩ := Progress.run_reached peers setting none (.start plan) session
    (completePlan peers setting plan session).1 (Option.get_mem _)
  exact hreached.data_eq hfinished

end Lookup

end AirInquiry
