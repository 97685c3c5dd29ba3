import AirInquiry.Proofs.Lookup.Interleaving
import AirInquiry.Proofs.Lookup.Results

/-!
# Which rows survive

A failed lookup may bring data next to its error, and what it brings is collected like anything
else. So the rows of an inquiry are in the collected data at the end, followed by all rows that come
behind them, exactly when the failed inquiries behind it hold nothing but lists for the table
(`rows_survive_iff`). A null next to an error takes the place of all rows before it
(`not_rowsSurvive_provinces`).
-/

set_option autoImplicit false
set_option relaxedAutoImplicit false

namespace AirInquiry.Lookup

variable {σ : Type} {table : String}

/-- The rows that an inquiry holds for a table. -/
def rowsFor (table : String) (inquiry : Inquiry) : List Json :=
  (valuesFor table inquiry.data).flatMap rowsOf

/-- An inquiry holds nothing but lists for a table. -/
def HoldsLists (table : String) (inquiry : Inquiry) : Prop :=
  ∀ value ∈ valuesFor table inquiry.data, IsList value

instance (table : String) : DecidablePred (HoldsLists table) := fun inquiry ↦
  inferInstanceAs (Decidable (∀ value ∈ valuesFor table inquiry.data, IsList value))

theorem flatMap_rowsOf (inquiries : List Inquiry) :
    (inquiries.flatMap fun item ↦ valuesFor table item.data).flatMap rowsOf =
      inquiries.flatMap (rowsFor table) :=
  List.flatMap_assoc

theorem forall_isList_iff (inquiries : List Inquiry) :
    (∀ value ∈ inquiries.flatMap fun item ↦ valuesFor table item.data, IsList value) ↔
      ∀ item ∈ inquiries, HoldsLists table item := by
  constructor
  · intro h item hitem value hvalue
    exact h value (List.mem_flatMap.2 ⟨item, hitem, hvalue⟩)
  · intro h value hvalue
    obtain ⟨item, hitem, hmem⟩ := List.mem_flatMap.1 hvalue
    exact h item hitem value hmem

/-- Where an inquiry holds something else than lists, a list at the end holds only rows from there
on, so none from before the inquiries `after`. -/
theorem isSuffix_of_not_holdsLists {before after : List Inquiry} {items : List Json}
    (h : (collect [] ⟨before ++ after⟩).get? table = some (.array items))
    (hafter : ¬ ∀ item ∈ after, HoldsLists table item) :
    items <:+ after.flatMap (rowsFor table) := by
  rw [get?_collect, List.flatMap_append, mergeValues_append] at h
  rw [← flatMap_rowsOf]
  exact isSuffix_of_mergeValues h (mt (forall_isList_iff after).1 hafter)

/-- The rows of an inquiry are kept exactly when all inquiries behind it hold only lists. -/
theorem rows_kept_iff (before after : List Inquiry) {own : Inquiry} (hown : HoldsLists table own)
    (hrows : rowsFor table own ≠ []) :
    (∃ items, (collect [] ⟨before ++ own :: after⟩).get? table = some (.array items) ∧
      (own :: after).flatMap (rowsFor table) <:+ items) ↔
      ∀ item ∈ after, HoldsLists table item := by
  constructor
  · rintro ⟨items, hitems, hkept⟩
    by_contra hafter
    -- After a value that is no list, the list is too short to hold the rows of `own` as well.
    rw [List.append_cons] at hitems
    have hlater := (isSuffix_of_not_holdsLists hitems hafter).length_le
    have hlength := hkept.length_le
    rw [List.flatMap_cons, List.length_append] at hlength
    have hpositive : 0 < (rowsFor table own).length := List.length_pos_iff.2 hrows
    omega
  · intro hafter
    have hvalues : valuesFor table own.data ≠ [] := by
      intro hempty
      rw [rowsFor, hempty] at hrows
      exact hrows rfl
    obtain ⟨front, hfront⟩ := exists_mergeValues_of_lists
      (mergeValues none (before.flatMap fun item ↦ valuesFor table item.data)) hown hvalues
    refine ⟨front ++ rowsFor table own ++ after.flatMap (rowsFor table), ?_, ?_⟩
    · have hstart : Json.Entries.get? [] table = none := rfl
      have hlater := mergeValues_of_lists ((forall_isList_iff after).2 hafter)
      rw [get?_collect, List.flatMap_append, List.flatMap_cons, mergeValues_append,
        mergeValues_append, hstart, hfront, hlater, flatMap_rowsOf, rowsFor]
    · rw [List.flatMap_cons, List.append_assoc]
      exact List.suffix_append front _

/-- Whatever the peers do, the rows that an inquiry without an error holds for a table are in the
list for it at the end, with all rows that come behind them, exactly when the failed inquiries
behind it hold only lists for the table; else a list at the end holds only rows that come behind
them. Assumes that the inquiry has rows, and that inquiries without an error hold only lists. -/
theorem rows_survive_iff (peers : Peers σ) (setting : Setting) (plan : Plan) (session : Session σ)
    {before after : List Inquiry} {own : Inquiry}
    (hplan : (completePlan peers setting plan session).1.plan.inquiries = before ++ own :: after)
    (hown : own.hasFailed = false) (hrows : rowsFor table own ≠ [])
    (hlists : ∀ item ∈ own :: after, item.hasFailed = false → HoldsLists table item) :
    ((∃ items, (completePlan peers setting plan session).1.data.get? table = some (.array items) ∧
      (own :: after).flatMap (rowsFor table) <:+ items) ↔
      ∀ item ∈ after, item.hasFailed = true → HoldsLists table item) ∧
    ((¬ ∀ item ∈ after, item.hasFailed = true → HoldsLists table item) →
      ∀ items, (completePlan peers setting plan session).1.data.get? table = some (.array items) →
        items <:+ after.flatMap (rowsFor table)) := by
  rw [List.forall_mem_cons] at hlists
  have hfailed : (∀ item ∈ after, HoldsLists table item) ↔
      ∀ item ∈ after, item.hasFailed = true → HoldsLists table item := by
    constructor
    · intro h item hitem _
      exact h item hitem
    · intro h item hitem
      by_cases hfailed : item.hasFailed = true
      · exact h item hitem hfailed
      · exact hlists.2 item hitem (Bool.eq_false_iff.2 hfailed)
  rw [data_completePlan, hplan, ← hfailed]
  refine ⟨rows_kept_iff before after (hlists.1 hown) hrows, fun hafter items hitems ↦ ?_⟩
  rw [List.append_cons] at hitems
  exact isSuffix_of_not_holdsLists hitems hafter

/-! ### Failures next to rows -/

/-- A failure takes no rows from others: where an inquiry failed, every row that inquiries without
an error hold for a table is in the list for it at the end, if all of them hold lists. -/
def RowsSurvive (progress : Progress) : Prop :=
  ∀ failed ∈ progress.plan.inquiries, failed.hasFailed = true → ∀ table,
    (∀ item ∈ progress.plan.inquiries, item.hasFailed = false → HoldsLists table item) →
    ∀ item ∈ progress.plan.inquiries, item.hasFailed = false → ∀ row ∈ rowsFor table item,
      ∃ items, progress.data.get? table = some (.array items) ∧ row ∈ items

/-- Assumes that failed inquiries hold only lists. -/
theorem rowsSurvive_completePlan (peers : Peers σ) (setting : Setting) (plan : Plan)
    (session : Session σ)
    (h : ∀ item ∈ (completePlan peers setting plan session).1.plan.inquiries,
      item.hasFailed = true → ∀ table, HoldsLists table item) :
    RowsSurvive (completePlan peers setting plan session).1 := by
  intro failed _ _ table hlists own hmem _ row hrow
  have hall : ∀ item ∈ (completePlan peers setting plan session).1.plan.inquiries,
      HoldsLists table item := by
    intro item hitem
    by_cases hfailed : item.hasFailed = true
    · exact h item hitem hfailed table
    · exact hlists item hitem (Bool.eq_false_iff.2 hfailed)
  obtain ⟨before, after, hsplit⟩ := List.append_of_mem hmem
  rw [hsplit] at hall
  obtain ⟨items, hitems, hkept⟩ := (rows_kept_iff before after (hall own (by simp))
    (List.ne_nil_of_mem hrow)).2 fun item hitem ↦ hall item (by simp [hitem])
  refine ⟨items, ?_, hkept.subset (List.mem_flatMap.2 ⟨own, .head _, hrow⟩)⟩
  rw [data_completePlan, hsplit]
  exact hitems

/-- A model that selects names, and a data service that knows one province, but answers as given
where only two provinces are asked for. -/
def limitedReplies (limited : Transport.Reply) : Replies where
  complete := fun _ ↦ .ok (.object [("name", .bool true)])
  post := fun query ↦
    if query = "query \x7b\n  provinces(limit: 2) \x7b\n    id name\n  \x7d\n\x7d" then limited
    else .ok ⟨some [("provinces", .array [.string "Hanoi"])], none⟩

/-- The peers that give these replies at once. -/
def limitedPeers (limited : Transport.Reply) : Peers Nat :=
  (limitedReplies limited).delayed fun _ ↦ 0

/-- Constraints are inferred by rule. -/
def ruleSetting : Setting := ⟨Catalog.airQuality, .rules, ⟨[]⟩, 4096, "2024-05-01"⟩

/-- All provinces, and next to them two provinces. -/
def limitedPlan : Plan where
  first := ⟨[{ question := "Which provinces?", table := "provinces" },
    { question := "top 2", table := "provinces" }]⟩

/-- An inquiry of the plan after its lookup. -/
def limitedInquiry (limited : Transport.Reply) (question : String) : Inquiry :=
  fillAlone (limitedReplies limited) ruleSetting [] { question, table := "provinces" }

theorem completePlan_limitedPlan (limited : Transport.Reply) :
    (completePlan (limitedPeers limited) ruleSetting limitedPlan ⟨0, 0, []⟩).1 =
      sequential (limitedReplies limited) ruleSetting limitedPlan :=
  completePlan_eq_sequential ((limitedReplies limited).govern_delayed _) limitedPlan _

theorem inquiries_limitedPlan (limited : Transport.Reply) :
    (completePlan (limitedPeers limited) ruleSetting limitedPlan ⟨0, 0, []⟩).1.plan.inquiries =
      [] ++ limitedInquiry limited "Which provinces?" :: [limitedInquiry limited "top 2"] := by
  rw [completePlan_limitedPlan]
  rfl

/-- The data service fails for the two provinces, and the one that it knows is kept. -/
theorem rows_survive_iff_provinces :
    rowsFor "provinces" (limitedInquiry (.error (.status 500 "down")) "Which provinces?") ≠ [] ∧
    (limitedInquiry (.error (.status 500 "down")) "top 2").hasFailed = true ∧
    ∃ items, (completePlan (limitedPeers (.error (.status 500 "down"))) ruleSetting limitedPlan
      ⟨0, 0, []⟩).1.data.get? "provinces" = some (.array items) ∧
      [limitedInquiry (.error (.status 500 "down")) "Which provinces?",
        limitedInquiry (.error (.status 500 "down")) "top 2"].flatMap (rowsFor "provinces") <:+
        items := by
  have hrows : rowsFor "provinces"
      (limitedInquiry (.error (.status 500 "down")) "Which provinces?") ≠ [] :=
    List.isEmpty_eq_false_iff.1 (by decide +kernel)
  refine ⟨hrows, by decide +kernel, ?_⟩
  exact (rows_survive_iff (limitedPeers (.error (.status 500 "down"))) ruleSetting limitedPlan
    ⟨0, 0, []⟩ (inquiries_limitedPlan _) (by decide +kernel) hrows
    (by decide +kernel)).1.2 (by decide +kernel)

/-- The data service answers with a null next to an error for the two provinces, and the one that it
knows is lost. -/
theorem not_rowsSurvive_provinces :
    ¬ RowsSurvive (completePlan (limitedPeers (.ok
      ⟨some [("provinces", .null)], some [⟨"permission denied", none⟩]⟩)) ruleSetting limitedPlan
      ⟨0, 0, []⟩).1 := by
  let limited : Transport.Reply :=
    .ok ⟨some [("provinces", .null)], some [⟨"permission denied", none⟩]⟩
  have hlost : (((sequential (limitedReplies limited) ruleSetting limitedPlan).data.get?
      "provinces").bind Json.asArray?).isNone = true := by decide +kernel
  have hrows : rowsFor "provinces" (limitedInquiry limited "Which provinces?") ≠ [] :=
    List.isEmpty_eq_false_iff.1 (by decide +kernel)
  intro h
  unfold RowsSurvive at h
  rw [inquiries_limitedPlan, completePlan_limitedPlan] at h
  obtain ⟨row, hrow⟩ := List.exists_mem_of_ne_nil _ hrows
  obtain ⟨items, hitems, -⟩ := h (limitedInquiry limited "top 2") (.tail _ (.head _))
    (by decide +kernel) "provinces" (by decide +kernel)
    (limitedInquiry limited "Which provinces?") (.head _) (by decide +kernel) row hrow
  rw [hitems] at hlost
  cases hlost

end AirInquiry.Lookup
