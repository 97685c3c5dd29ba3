import AirInquiry.Proofs.Inference.Candidates

/-!
# Limits that no question names

A question about the latest or the oldest rows that names no number of rows is limited to one. With
an order by date this is the row that is asked for (`StartsWithDate`). The order needs the date
among the candidate fields (`head?_orderFor`), but the limit does not, so of rows without a date any
one may be kept (`not_isLimitDated_latest`). This happens for all questions of this kind without the
candidate, and in no other case (`isLimitDated_iff`).
-/

set_option autoImplicit false
set_option relaxedAutoImplicit false

namespace AirInquiry.Inference

variable {question today : String} {fields : List FieldChoice} {prior : Json.Entries}
  {names : NameIndex} {paths : List String} {constraints : Constraints}

/-- The first sort key is the date: from the latest one on if the question mentions a phrase for the
latest rows, and from the oldest one on if it only mentions one for the oldest. -/
def StartsWithDate (question : String) (constraints : Constraints) : Prop :=
  ∃ key, constraints.sortKeys.head? = some key ∧ key.field = dateField ∧
    ((mentionsAny question latestPhrases = true ∧ key.direction = .descending) ∨
      (mentionsAny question latestPhrases = false ∧ mentionsAny question oldestPhrases = true ∧
        key.direction = .ascending))

/-- If there is a limit and the question names none, the order starts with the date. -/
def IsLimitDated (question : String) (fields : List FieldChoice) (prior : Json.Entries)
    (names : NameIndex) (today : String) : Prop :=
  ∀ constraints ∈ infer question fields prior names today, statedLimit question = none →
    constraints.limit.isSome = true → StartsWithDate question constraints

/-! ### Recency -/

theorem recencyOf_eq_none_iff : recencyOf question = none ↔
    mentionsAny question latestPhrases = false ∧ mentionsAny question oldestPhrases = false := by
  rw [recencyOf]
  cases mentionsAny question latestPhrases <;> cases mentionsAny question oldestPhrases <;> simp

theorem direction_of_recencyOf {recency : Recency} (h : recencyOf question = some recency) :
    (mentionsAny question latestPhrases = true ∧ recency.direction = .descending) ∨
      (mentionsAny question latestPhrases = false ∧ mentionsAny question oldestPhrases = true ∧
        recency.direction = .ascending) := by
  rw [recencyOf] at h
  split at h
  · next hlatest =>
    cases h
    exact .inl ⟨hlatest, rfl⟩
  · next hlatest =>
    split at h
    · next holdest =>
      cases h
      exact .inr ⟨Bool.eq_false_iff.2 hlatest, holdest, rfl⟩
    · cases h

/-! ### The order and the limit -/

/-- With the date among the candidates it is the first sort key. -/
theorem head?_orderFor (recency : Recency) (h : dateField ∈ paths) :
    ∃ key, (orderFor (some recency) paths).head? = some key ∧ key.field = dateField ∧
      key.direction = recency.direction := by
  have hdate : paths.contains dateField = true := List.contains_iff_mem.2 h
  obtain ⟨key, hmake, hdirection⟩ : ∃ key,
      SortKey.make dateField recency.direction none = .ok key ∧
        key.direction = recency.direction := by
    cases recency <;> exact ⟨_, rfl, rfl⟩
  have hfound : (SortKey.make dateField recency.direction none).toOption = some key := by
    rw [hmake]
    rfl
  refine ⟨key, ?_, SortKey.field_of_make hmake, hdirection⟩
  rw [orderFor.eq_2, if_pos hdate, List.filter_cons_of_pos hdate, List.filterMap_cons, hfound]
  exact List.head?_cons

theorem orderFor_eq_nil (recency : Option Recency) (h : dateField ∉ paths) :
    orderFor recency paths = [] := by
  cases recency with
  | none => rfl
  | some recency => rw [orderFor.eq_2, if_neg fun hdate ↦ h (List.contains_iff_mem.1 hdate)]

/-- Without a number in the question a limit comes from its recency. -/
theorem inferredLimit_eq (h : statedLimit question = none) :
    inferredLimit question = (recencyOf question).map fun _ ↦ 1 := by
  rw [inferredLimit, limitFor, h]

theorem limit_of_infer (hinfer : infer question fields prior names today = some constraints)
    (hstated : statedLimit question = none) :
    (constraints.limit.map fun count ↦ (count.toNat : Int)) =
      (recencyOf question).map fun _ ↦ 1 := by
  rw [(parts_of_infer hinfer).2.2.1, inferredLimit_eq hstated]

/-- A limit that no question names is one row. -/
theorem limit_eq_one (hinfer : infer question fields prior names today = some constraints)
    (hstated : statedLimit question = none) {count : UInt32}
    (hcount : constraints.limit = some count) : count = 1 := by
  have hlimit := limit_of_infer hinfer hstated
  rw [hcount] at hlimit
  obtain ⟨recency, -, hone⟩ := Option.map_eq_some_iff.1 hlimit.symm
  have hnat : count.toNat = (1 : UInt32).toNat := Int.ofNat.inj hone.symm
  exact UInt32.toNat_inj.1 hnat

/-- A question for the latest or the oldest rows gets a limit. -/
theorem exists_limit_of_recencyOf {recency : Recency} (hstated : statedLimit question = none)
    (hrecency : recencyOf question = some recency) :
    ∃ constraints, infer question fields prior names today = some constraints ∧
      constraints.limit.isSome = true := by
  have hsome : infer question fields prior names today ≠ none := by
    intro hnone
    have hlimit := (infer_eq_none_iff.1 hnone).2.2
    rw [inferredLimit_eq hstated, hrecency] at hlimit
    cases hlimit
  obtain ⟨constraints, hinfer⟩ := Option.ne_none_iff_exists'.1 hsome
  have hlimit := congrArg Option.isSome (limit_of_infer hinfer hstated)
  rw [hrecency, Option.isSome_map] at hlimit
  exact ⟨constraints, hinfer, hlimit⟩

theorem sortKeys_eq_nil (hinfer : infer question fields prior names today = some constraints)
    (hdate : dateField ∉ candidatePaths fields) : constraints.sortKeys = [] := by
  rw [(parts_of_infer hinfer).2.1, inferredOrder, orderFor_eq_nil _ hdate]

theorem startsWithDate_of_infer {recency : Recency}
    (hinfer : infer question fields prior names today = some constraints)
    (hrecency : recencyOf question = some recency) (hdate : dateField ∈ candidatePaths fields) :
    StartsWithDate question constraints := by
  obtain ⟨key, hkey, hfield, hdirection⟩ := head?_orderFor recency hdate
  refine ⟨key, ?_, hfield, ?_⟩
  · rw [(parts_of_infer hinfer).2.1, inferredOrder, hrecency, hkey]
  · rw [hdirection]
    exact direction_of_recencyOf hrecency

/-- A limit that the question does not name comes with an order by date exactly if the question asks
for neither the latest nor the oldest rows, so that there is no such limit, or if the date is a
candidate. The limit is one row, and without the candidate there is no order at all. -/
theorem isLimitDated_iff (question : String) (fields : List FieldChoice) (prior : Json.Entries)
    (names : NameIndex) (today : String) :
    (IsLimitDated question fields prior names today ↔
      statedLimit question ≠ none ∨
      (mentionsAny question latestPhrases = false ∧ mentionsAny question oldestPhrases = false) ∨
      dateField ∈ candidatePaths fields) ∧
    ∀ constraints ∈ infer question fields prior names today, statedLimit question = none →
      (∀ count ∈ constraints.limit, count = 1) ∧
      (dateField ∉ candidatePaths fields → constraints.sortKeys = []) := by
  refine ⟨⟨fun hdated ↦ ?_, fun hcases constraints hinfer hstated hlimit ↦ ?_⟩,
    fun constraints hinfer hstated ↦
      ⟨fun count hcount ↦ limit_eq_one hinfer hstated hcount, sortKeys_eq_nil hinfer⟩⟩
  · rw [← recencyOf_eq_none_iff]
    by_contra hnone
    rw [not_or, not_or, not_not] at hnone
    obtain ⟨hstated, hrecency, hdate⟩ := hnone
    obtain ⟨recency, hrecency⟩ := Option.ne_none_iff_exists'.1 hrecency
    obtain ⟨constraints, hinfer, hlimit⟩ := exists_limit_of_recencyOf hstated hrecency
    obtain ⟨key, hkey, -⟩ := hdated constraints hinfer hstated hlimit
    rw [sortKeys_eq_nil hinfer hdate] at hkey
    cases hkey
  · cases hrecency : recencyOf question with
    | none =>
      have hsome := congrArg Option.isSome (limit_of_infer hinfer hstated)
      rw [hrecency, Option.isSome_map, hlimit] at hsome
      cases hsome
    | some recency =>
      refine startsWithDate_of_infer hinfer hrecency ?_
      rw [← recencyOf_eq_none_iff, hrecency] at hcases
      rcases hcases with hnumber | hnone | hdate
      · exact absurd hstated hnumber
      · cases hnone
      · exact hdate

/-- The measurements of a station, from the latest one on. -/
theorem isLimitDated_iff_station :
    ∃ constraints, infer "latest at the station" [⟨"station", true, none⟩, ⟨"date", false, none⟩] []
        ⟨[]⟩ "2024-05-01" = some constraints ∧ constraints.limit = some 1 ∧
      StartsWithDate "latest at the station" constraints := by
  obtain ⟨hiff, hparts⟩ := isLimitDated_iff "latest at the station"
    [⟨"station", true, none⟩, ⟨"date", false, none⟩] [] ⟨[]⟩ "2024-05-01"
  have hstated : statedLimit "latest at the station" = none := by decide +kernel
  have hlimit : (infer "latest at the station" [⟨"station", true, none⟩, ⟨"date", false, none⟩] []
      ⟨[]⟩ "2024-05-01").map (fun constraints ↦ constraints.limit.isSome) = some true := by
    decide +kernel
  obtain ⟨constraints, hinfer, hsome⟩ := Option.map_eq_some_iff.1 hlimit
  obtain ⟨count, hcount⟩ := Option.isSome_iff_exists.1 hsome
  refine ⟨constraints, hinfer, ?_, hiff.2 ?_ constraints hinfer hstated hsome⟩
  · rw [hcount, (hparts constraints hinfer hstated).1 count hcount]
  · exact .inr (.inr (by decide +kernel))

/-- Provinces have no date, so nothing says which one the latest is. -/
theorem not_isLimitDated_latest :
    ¬ IsLimitDated "latest province" [⟨"id", true, none⟩, ⟨"name", true, none⟩] [] ⟨[]⟩
      "2026-01-16" := by
  intro hdated
  have hparts : (infer "latest province" [⟨"id", true, none⟩, ⟨"name", true, none⟩] [] ⟨[]⟩
      "2026-01-16").map (fun constraints ↦ (constraints.limit.isSome, constraints.sortKeys)) =
      some (true, []) := by
    decide +kernel
  obtain ⟨constraints, hinfer, hfound⟩ := Option.map_eq_some_iff.1 hparts
  rw [Prod.mk.injEq] at hfound
  obtain ⟨key, hkey, -⟩ := hdated constraints hinfer (by decide +kernel) hfound.1
  rw [hfound.2] at hkey
  cases hkey

end AirInquiry.Inference
