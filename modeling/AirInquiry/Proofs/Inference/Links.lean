import AirInquiry.Proofs.Filter.Passing
import AirInquiry.Proofs.Inference.Candidates

/-!
# Rows that earlier results lead to

The rows of a table `things` are pointed to by a field `thing_id` (`Inference.IsLinkField`). A
result holds the rows of a list, or a single one (`Inference.HasRows`), and a row is identified by a
text or a number (`Inference.Identifies`).

An earlier result is usable for a table if the field that points to its rows is a candidate and one
of its rows has an identifier (`Inference.IsUsable`). Each usable result gives one filter, which
lists every identifier of its rows once, at its first place (`Inference.IsLink`), and no other
result gives any.

So a row passes what is inferred exactly if it points to some row of each usable result, is dated as
the question asks, and carries the name that the question mentions if no result is usable
(`Inference.passes_infer_iff`).
-/

set_option autoImplicit false
set_option relaxedAutoImplicit false

namespace AirInquiry

open GraphQL (Name isName)

namespace Inference

variable {question today : String} {fields : List FieldChoice} {prior : Json.Entries}
  {names : NameIndex} {paths : List String} {entry : String × Json} {filter : Filter}

/-! ### Fields that point to rows -/

/-- The field that points to the rows of a table: `thing_id` for `things`, where only one `s` is
taken off, and else the name of the table with `_id`. -/
inductive IsLinkField : (table field : String) → Prop where
  | plural (stem : String) : IsLinkField (stem ++ "s") (stem ++ "_id")
  | other (table : String) (h : ∀ stem, table ≠ stem ++ "s") : IsLinkField table (table ++ "_id")

theorem linkField_plural (stem : String) : linkField (stem ++ "s") = stem ++ "_id" := by
  have hchars : (stem ++ "s").toList = stem.toList ++ ['s'] := String.toList_append
  rw [linkField, hchars, List.getLast?_concat, if_pos rfl, List.dropLast_concat,
    String.ofList_toList]

theorem linkField_other {table : String} (h : ∀ stem, table ≠ stem ++ "s") :
    linkField table = table ++ "_id" := by
  have hlast : table.toList.getLast? ≠ some 's' := by
    intro hlast
    obtain ⟨stem, hstem⟩ := List.getLast?_eq_some_iff.1 hlast
    refine h (String.ofList stem) (String.toList_inj.1 ?_)
    rw [String.toList_append, String.toList_ofList, hstem]
    rfl
  rw [linkField, if_neg hlast, String.ofList_toList]

theorem isLinkField_iff {table field : String} :
    IsLinkField table field ↔ linkField table = field := by
  constructor
  · intro h
    cases h with
    | plural stem => exact linkField_plural stem
    | other _ h => exact linkField_other h
  · rintro rfl
    by_cases h : ∃ stem, table = stem ++ "s"
    · obtain ⟨stem, rfl⟩ := h
      rw [linkField_plural]
      exact .plural stem
    · have hother : ∀ stem, table ≠ stem ++ "s" := fun stem heq ↦ h ⟨stem, heq⟩
      rw [linkField_other hother]
      exact .other table hother

/-! ### Rows and identifiers -/

/-- The rows that a result holds: the items of a list, or a single object. -/
inductive HasRows : (result : Json) → (rows : List Json) → Prop where
  | items (rows : List Json) : HasRows (.array rows) rows
  | single (entries : Json.Entries) : HasRows (.object entries) [.object entries]

/-- A row is identified by the text or the number that it has under `id`. -/
inductive Identifies (row : Json) : Scalar → Prop where
  | text (text : String) (h : row.get? "id" = some (.string text)) : Identifies row (.string text)
  | number (value : Json.Number) (h : row.get? "id" = some (.number value)) :
    Identifies row (.number value)

/-- The identifiers of rows, in the order of the rows. A row without one is passed over. -/
inductive Finds : (rows : List Json) → (found : List Scalar) → Prop where
  | nil : Finds [] []
  | found {row : Json} {rest : List Json} {identifier : Scalar} {found : List Scalar}
    (hrow : Identifies row identifier) (hrest : Finds rest found) :
    Finds (row :: rest) (identifier :: found)
  | passed {row : Json} {rest : List Json} {found : List Scalar}
    (hrow : ∀ identifier, ¬ Identifies row identifier) (hrest : Finds rest found) :
    Finds (row :: rest) found

/-- The identifiers of the rows of a result, each of them once, at its first place. -/
def Lists (result : Json) (listed : List Scalar) : Prop :=
  ∃ rows found, HasRows result rows ∧ Finds rows found ∧ firsts Scalar.equals found = listed

theorem identifierOf?_eq_some_iff {row : Json} {identifier : Scalar} :
    identifierOf? row = some identifier ↔ Identifies row identifier := by
  constructor
  · intro h
    unfold identifierOf? at h
    split at h
    · next text htext =>
      cases h
      exact .text text htext
    · next value hvalue =>
      cases h
      exact .number value hvalue
    · cases h
  · intro h
    cases h with
    | text text h => rw [identifierOf?, h]
    | number value h => rw [identifierOf?, h]

theorem identifierOf?_eq_none_iff {row : Json} :
    identifierOf? row = none ↔ ∀ identifier, ¬ Identifies row identifier := by
  simp only [Option.eq_none_iff_forall_ne_some, ne_eq, identifierOf?_eq_some_iff]

theorem mem_rowsOf_iff {result row : Json} :
    row ∈ rowsOf result ↔ ∃ rows, HasRows result rows ∧ row ∈ rows := by
  constructor
  · intro h
    cases result with
    | array rows => exact ⟨rows, .items rows, h⟩
    | object entries => exact ⟨_, .single entries, h⟩
    | _ => cases h
  · rintro ⟨rows, hrows, h⟩
    cases hrows with
    | items => exact h
    | single => exact h

theorem finds_iff {rows : List Json} {found : List Scalar} :
    Finds rows found ↔ rows.filterMap identifierOf? = found := by
  constructor
  · intro h
    induction h with
    | nil => rfl
    | found hrow _ ih => rw [List.filterMap_cons_some (identifierOf?_eq_some_iff.2 hrow), ih]
    | passed hrow _ ih => rw [List.filterMap_cons_none (identifierOf?_eq_none_iff.2 hrow), ih]
  · rintro rfl
    induction rows with
    | nil => exact .nil
    | cons row rest ih =>
      cases hrow : identifierOf? row with
      | none =>
        rw [List.filterMap_cons_none hrow]
        exact .passed (identifierOf?_eq_none_iff.1 hrow) ih
      | some identifier =>
        rw [List.filterMap_cons_some hrow]
        exact .found (identifierOf?_eq_some_iff.1 hrow) ih

/-- Identifiers are the same exactly if they are equal. -/
theorem sameIdentifier_eq {row : Json} {identifier : Scalar} (h : Identifies row identifier)
    (known : Scalar) : sameIdentifier known identifier = known.equals identifier := by
  cases h <;> cases known <;> rfl

/-- By induction on the rows, with those in front of them. -/
theorem identifiersFrom_eq (front : List Scalar) (rows : List Json) :
    identifiersFrom (firsts Scalar.equals front) rows =
      firsts Scalar.equals (front ++ rows.filterMap identifierOf?) := by
  induction rows generalizing front with
  | nil => rw [identifiersFrom, List.filterMap_nil, List.append_nil]
  | cons row rest ih =>
    rw [identifiersFrom]
    cases hidentifier : identifierOf? row with
    | none => rw [List.filterMap_cons_none hidentifier, ih]
    | some identifier =>
      -- Only the listed identifiers are known, but they stand for all in front of them.
      have hknown : (firsts Scalar.equals front).any (sameIdentifier · identifier) =
          front.any (Scalar.equals · identifier) := by
        simp only [sameIdentifier_eq (identifierOf?_eq_some_iff.1 hidentifier)]
        exact any_firsts Scalar.equals Scalar.equals_trans identifier
      have hnext := firsts_concat Scalar.equals front identifier
      rw [List.filterMap_cons_some hidentifier, ← List.singleton_append (l := rest.filterMap _),
        ← List.append_assoc, ← ih, hnext]
      dsimp only
      rw [hknown]
      split
      · rw [List.append_nil]
      · rfl

theorem identifiers_eq (result : Json) :
    identifiers result = firsts Scalar.equals ((rowsOf result).filterMap identifierOf?) :=
  identifiersFrom_eq [] (rowsOf result)

theorem identifiers_eq_nil_iff {result : Json} :
    identifiers result = [] ↔ ∀ row ∈ rowsOf result, ∀ identifier, ¬ Identifies row identifier := by
  rw [identifiers_eq, firsts_eq_nil_iff, List.filterMap_eq_nil_iff]
  simp only [identifierOf?_eq_none_iff]

theorem Lists.identifiers_eq {result : Json} {listed : List Scalar} (h : Lists result listed) :
    identifiers result = listed := by
  obtain ⟨rows, found, hrows, hfound, rfl⟩ := h
  rw [Inference.identifiers_eq, ← finds_iff.1 hfound]
  cases hrows <;> rfl

theorem lists_identifiers {result : Json} (h : identifiers result ≠ []) :
    Lists result (identifiers result) := by
  rw [identifiers_eq] at h ⊢
  cases result with
  | array rows => exact ⟨rows, _, .items rows, finds_iff.2 rfl, rfl⟩
  | object entries => exact ⟨_, _, .single entries, finds_iff.2 rfl, rfl⟩
  | _ => exact absurd rfl h

/-! ### Links -/

/-- A result is usable: the field that points to its rows is a candidate and a name, and one of its
rows has an identifier. -/
def IsUsable (paths : List String) (entry : String × Json) : Prop :=
  (∃ field ∈ paths, IsLinkField entry.1 field ∧ isName field = true) ∧
    ∃ rows, HasRows entry.2 rows ∧ ∃ row ∈ rows, ∃ identifier, Identifies row identifier

/-- A filter for the rows that point to those of a result: the field has to equal the identifier if
only one is listed, and else to be one of them. -/
def IsLink (entry : String × Json) (filter : Filter) : Prop :=
  ∃ (field : Name) (listed : List Scalar), IsLinkField entry.1 field.text ∧
    Lists entry.2 listed ∧
    ((∃ identifier, listed = [identifier] ∧
        filter = .leaf (.compared field (.scalar .equal identifier))) ∨
      2 ≤ listed.length ∧ filter = .leaf (.compared field (.oneOf listed)))

theorem isUsable_iff : IsUsable paths entry ↔ linkField entry.1 ∈ paths ∧
    isName (linkField entry.1) = true ∧ identifiers entry.2 ≠ [] := by
  have hfield : (∃ field ∈ paths, IsLinkField entry.1 field ∧ isName field = true) ↔
      linkField entry.1 ∈ paths ∧ isName (linkField entry.1) = true := by
    simp only [isLinkField_iff]
    constructor
    · rintro ⟨field, hpath, rfl, hname⟩
      exact ⟨hpath, hname⟩
    · rintro ⟨hpath, hname⟩
      exact ⟨_, hpath, rfl, hname⟩
  have hrows : (∃ rows, HasRows entry.2 rows ∧
      ∃ row ∈ rows, ∃ identifier, Identifies row identifier) ↔ identifiers entry.2 ≠ [] := by
    rw [ne_eq, identifiers_eq_nil_iff]
    simp only [mem_rowsOf_iff, not_forall, not_not, exists_prop]
    constructor
    · rintro ⟨rows, hrows, row, hrow, hidentifier⟩
      exact ⟨row, ⟨rows, hrows, hrow⟩, hidentifier⟩
    · rintro ⟨row, ⟨rows, hrows, hrow⟩, hidentifier⟩
      exact ⟨rows, hrows, row, hrow, hidentifier⟩
  rw [IsUsable, hfield, hrows, and_assoc]

instance : DecidablePred (IsUsable paths) := fun _ ↦ decidable_of_iff' _ isUsable_iff

theorem toOption_map_nameFor {α : Type} (field : String) (change : Name → α) :
    ((Condition.nameFor field).map change).toOption = (Name.ofString? field).map change := by
  rw [Condition.nameFor]
  cases Name.ofString? field <;> rfl

theorem linkCondition?_eq_none {field : String} (hname : isName field = false)
    (listed : List Scalar) : linkCondition? field listed = none := by
  have hnone := GraphQL.Name.ofString?_eq_none.2 hname
  rw [linkCondition?.eq_def]
  split
  · rfl
  · rw [Condition.compare_scalar, toOption_map_nameFor, hnone, Option.map_none]
  · rw [Condition.compare_oneOf, toOption_map_nameFor, hnone, Option.map_none]

/-- Any identifiers give a condition on a field that is a name. -/
theorem exists_linkCondition? {field : String} (hname : isName field = true) {listed : List Scalar}
    (hsome : listed ≠ []) : ∃ name : Name, name.text = field ∧
      ((∃ identifier, listed = [identifier] ∧
          linkCondition? field listed = some (.compared name (.scalar .equal identifier))) ∨
        2 ≤ listed.length ∧
          linkCondition? field listed = some (.compared name (.oneOf listed))) := by
  have hfield : Name.ofString? field = some ⟨field, hname⟩ := Name.ofString?_text ⟨field, hname⟩
  refine ⟨⟨field, hname⟩, rfl, ?_⟩
  rw [linkCondition?.eq_def]
  split
  · exact absurd rfl hsome
  · next identifier =>
    refine .inl ⟨identifier, rfl, ?_⟩
    rw [Condition.compare_scalar, toOption_map_nameFor, hfield, Option.map_some]
  · next hempty hsingle =>
    refine .inr ⟨?_, by rw [Condition.compare_oneOf, toOption_map_nameFor, hfield, Option.map_some]⟩
    cases listed with
    | nil => exact absurd rfl hsome
    | cons first rest =>
      cases rest with
      | nil => exact absurd rfl (hsingle first)
      | cons second rest => exact Nat.le_add_left 2 rest.length

/-- A usable result gives its link, and any other result gives nothing. -/
theorem linkFilter?_cases (paths : List String) (entry : String × Json) :
    (¬ IsUsable paths entry ∧ linkFilter? paths entry = none) ∨
      ∃ filter, IsUsable paths entry ∧ linkFilter? paths entry = some filter ∧
        IsLink entry filter := by
  rw [linkFilter?, isUsable_iff, ← List.contains_iff_mem]
  cases hcontains : paths.contains (linkField entry.1) with
  | false => exact .inl ⟨fun h ↦ absurd h.1 (by decide), rfl⟩
  | true =>
    cases hname : isName (linkField entry.1) with
    | false =>
      exact .inl ⟨fun h ↦ absurd h.2.1 (by decide), by rw [linkCondition?_eq_none hname]; rfl⟩
    | true =>
      by_cases hnone : identifiers entry.2 = []
      · exact .inl ⟨fun h ↦ h.2.2 hnone, by rw [hnone]; rfl⟩
      · have hlists := lists_identifiers hnone
        obtain ⟨field, hfield, hlinked⟩ := exists_linkCondition? hname hnone
        have hlinkField := isLinkField_iff.2 hfield.symm
        rw [if_pos rfl]
        rcases hlinked with ⟨identifier, hlisted, hcondition⟩ | ⟨hlength, hcondition⟩
        · refine .inr ⟨_, ⟨rfl, rfl, hnone⟩, by rw [hcondition, Option.map_some], ?_⟩
          exact ⟨field, _, hlinkField, hlists, .inl ⟨identifier, hlisted, rfl⟩⟩
        · refine .inr ⟨_, ⟨rfl, rfl, hnone⟩, by rw [hcondition, Option.map_some], ?_⟩
          exact ⟨field, _, hlinkField, hlists, .inr ⟨hlength, rfl⟩⟩

/-! ### Passing the inferred filter -/

section Passing

variable {Row : Type} {judgement : Judgement Row} {row : Row}

/-- A conjunction is passed exactly if each filter is; without any filters there is nothing to pass.
-/
theorem passes_conjunction {filters : List Filter} :
    (∀ filter ∈ conjunction filters, filter.Passes judgement row) ↔
      ∀ filter ∈ filters, filter.Passes judgement row := by
  rw [conjunction.eq_def]
  split
  · simp
  · simp
  · simp only [Option.mem_def, Option.some.injEq, forall_eq', Filter.Passes, Filter.passesAll_iff]

/-- The row points to a row of the result: its field holds the identifier of that row. -/
def PointsTo (judgement : Judgement Row) (row : Row) (entry : String × Json) : Prop :=
  ∃ field rows, IsLinkField entry.1 field ∧ HasRows entry.2 rows ∧
    ∃ found ∈ rows, ∃ identifier, Identifies found identifier ∧
      (judgement.value row field).isEqualTo identifier = true

/-- No identifier is lost where only the first of equal ones are listed. -/
theorem pointsTo_iff : PointsTo judgement row entry ↔
    ∃ identifier ∈ identifiers entry.2,
      (judgement.value row (linkField entry.1)).isEqualTo identifier = true := by
  rw [identifiers_eq, exists_mem_firsts_iff fun hsame hlater ↦
    Json.isEqualTo_of_equals hsame hlater]
  constructor
  · rintro ⟨_, rows, hfield, hrows, found, hfound, identifier, hidentifier, hequal⟩
    rw [← isLinkField_iff.1 hfield] at hequal
    refine ⟨identifier, List.mem_filterMap.2 ⟨found, ?_, ?_⟩, hequal⟩
    · exact mem_rowsOf_iff.2 ⟨rows, hrows, hfound⟩
    · exact identifierOf?_eq_some_iff.2 hidentifier
  · rintro ⟨identifier, hmem, hequal⟩
    obtain ⟨found, hfound, hidentifier⟩ := List.mem_filterMap.1 hmem
    obtain ⟨rows, hrows, hrow⟩ := mem_rowsOf_iff.1 hfound
    exact ⟨_, rows, isLinkField_iff.2 rfl, hrows, found, hrow, identifier,
      identifierOf?_eq_some_iff.1 hidentifier, hequal⟩

theorem IsLink.passes_iff (h : IsLink entry filter) :
    filter.Passes judgement row ↔ PointsTo judgement row entry := by
  obtain ⟨field, listed, hfield, hlists, hfilter⟩ := h
  rw [pointsTo_iff, hlists.identifiers_eq, isLinkField_iff.1 hfield]
  rcases hfilter with ⟨identifier, rfl, rfl⟩ | ⟨-, rfl⟩
  · rw [Filter.Passes, judgement.meets_equal]
    simp
  · rw [Filter.Passes, judgement.meets_oneOf]

theorem passes_linkFilters_iff :
    (∀ filter ∈ linkFilters prior paths, filter.Passes judgement row) ↔
      ∀ entry ∈ prior, IsUsable paths entry → PointsTo judgement row entry := by
  constructor
  · intro h entry hentry husable
    rcases linkFilter?_cases paths entry with ⟨hunusable, -⟩ | ⟨filter, -, hfilter, hlink⟩
    · exact absurd husable hunusable
    · exact hlink.passes_iff.1 (h filter (List.mem_filterMap.2 ⟨entry, hentry, hfilter⟩))
  · intro h filter hfilter
    obtain ⟨entry, hentry, hfound⟩ := List.mem_filterMap.1 hfilter
    rcases linkFilter?_cases paths entry with ⟨-, hnone⟩ | ⟨other, husable, hother, hlink⟩
    · rw [hnone] at hfound
      cases hfound
    · rw [hother] at hfound
      cases hfound
      exact hlink.passes_iff.2 (h entry hentry husable)

theorem passes_todayFilters_iff :
    (∀ filter ∈ todayFilters question today paths, filter.Passes judgement row) ↔
      (isAboutToday question = true → "date" ∈ paths →
        (judgement.value row "date").isEqualTo (.string today) = true) := by
  have hdate : (Condition.compare dateField (.scalar .equal) (some (.string today))).toOption =
      some (.compared ⟨"date", by decide⟩ (.scalar .equal (.string today))) := by
    have hname : Name.ofString? dateField = some ⟨"date", by decide⟩ := by rfl
    have hcompare := Condition.compare_scalar dateField .equal (.string today)
    rw [Scalar.toJson] at hcompare
    rw [hcompare, toOption_map_nameFor, hname, Option.map_some]
  rw [todayFilters, hdate]
  split
  · next htoday =>
    rw [Bool.and_eq_true, List.contains_iff_mem] at htoday
    simp only [Option.map_some, Option.toList_some, List.mem_singleton, forall_eq, Filter.Passes,
      judgement.meets_equal]
    exact ⟨fun h _ _ ↦ h, fun h ↦ h htoday.1 htoday.2⟩
  · next htoday =>
    rw [Bool.and_eq_true, List.contains_iff_mem] at htoday
    refine iff_of_true ?_ fun habout hpath ↦ absurd ⟨habout, hpath⟩ htoday
    intro filter hfilter
    cases hfilter

end Passing

/-- The filter on the name that a question mentions first, if there is one. -/
def nameFilter (question : String) (paths : List String) (names : NameIndex) : Option Filter :=
  (names.firstMention question).bind fun name ↦ filterByName name paths

/-- The links stand in the order of the usable results, one for each. -/
theorem forall₂_linkFilters (prior : Json.Entries) (paths : List String) :
    List.Forall₂ IsLink (prior.filter fun entry ↦ IsUsable paths entry)
      (linkFilters prior paths) := by
  refine forall₂_filter_filterMap fun entry _ ↦ ?_
  simp only [decide_eq_true_eq, decide_eq_false_iff_not]
  exact linkFilter?_cases paths entry

/-- A name is looked for only if no result is usable. -/
theorem subjectFilters_eq (question : String) (paths : List String) (prior : Json.Entries)
    (names : NameIndex) :
    subjectFilters question paths prior names =
      if ∃ entry ∈ prior, IsUsable paths entry then linkFilters prior paths
      else (nameFilter question paths names).toList := by
  have hnone : linkFilters prior paths = [] ↔ ¬ ∃ entry ∈ prior, IsUsable paths entry := by
    rw [← List.length_eq_zero_iff, ← (forall₂_linkFilters prior paths).length_eq,
      List.length_eq_zero_iff, List.filter_eq_nil_iff]
    simp only [decide_eq_true_eq, not_exists, not_and]
  rw [subjectFilters]
  cases hlinks : linkFilters prior paths with
  | nil =>
    rw [if_neg (hnone.1 hlinks)]
    rfl
  | cons first rest =>
    have husable : ∃ entry ∈ prior, IsUsable paths entry := by
      by_contra hunusable
      rw [hnone.2 hunusable] at hlinks
      cases hlinks
    rw [if_pos husable]

theorem passes_subjectFilters_iff {Row : Type} {judgement : Judgement Row} {row : Row} :
    (∀ filter ∈ subjectFilters question paths prior names, filter.Passes judgement row) ↔
      (∀ entry ∈ prior, IsUsable paths entry → PointsTo judgement row entry) ∧
      ((∀ entry ∈ prior, ¬ IsUsable paths entry) →
        ∀ filter ∈ nameFilter question paths names, filter.Passes judgement row) := by
  rw [subjectFilters_eq, ← passes_linkFilters_iff]
  by_cases husable : ∃ entry ∈ prior, IsUsable paths entry
  · rw [if_pos husable]
    obtain ⟨entry, hentry, husable⟩ := husable
    exact ⟨fun h ↦ ⟨h, fun hnone ↦ absurd husable (hnone entry hentry)⟩, And.left⟩
  · rw [if_neg husable, passes_linkFilters_iff]
    have hunusable : ∀ entry ∈ prior, ¬ IsUsable paths entry :=
      fun entry hentry h ↦ husable ⟨entry, hentry, h⟩
    simp only [Option.mem_toList]
    refine ⟨fun h ↦ ⟨fun entry hentry husable ↦ ?_, fun _ ↦ h⟩, fun h ↦ h.2 hunusable⟩
    exact absurd husable (hunusable entry hentry)

theorem filter_infer (question : String) (fields : List FieldChoice) (prior : Json.Entries)
    (names : NameIndex) (today : String) :
    (infer question fields prior names today).bind Constraints.filter =
      inferredFilter question fields prior names today := by
  cases hinfer : infer question fields prior names today with
  | none => exact (infer_eq_none_iff.1 hinfer).1.symm
  | some constraints => exact (parts_of_infer hinfer).1

/-- Whatever was found before, a row passes what is inferred, if anything is, exactly if it points
to a row of each usable result, has the name that the question mentions where no result is usable,
and has the date of the day if the question is about it. The filter is made of one link for each
usable result, in their order, or else of the filter on the name, but never of both. -/
theorem passes_infer_iff {Row : Type} (judgement : Judgement Row) (question : String)
    (fields : List FieldChoice) (prior : Json.Entries) (names : NameIndex) (today : String)
    (row : Row) :
    ((∀ filter ∈ (infer question fields prior names today).bind Constraints.filter,
        filter.Passes judgement row) ↔
      (∀ entry ∈ prior, IsUsable (candidatePaths fields) entry → PointsTo judgement row entry) ∧
      ((∀ entry ∈ prior, ¬ IsUsable (candidatePaths fields) entry) →
        ∀ filter ∈ nameFilter question (candidatePaths fields) names,
          filter.Passes judgement row) ∧
      (isAboutToday question = true → "date" ∈ candidatePaths fields →
        (judgement.value row "date").isEqualTo (.string today) = true)) ∧
    ∃ links, List.Forall₂ IsLink
        (prior.filter fun entry ↦ IsUsable (candidatePaths fields) entry) links ∧
      (infer question fields prior names today).bind Constraints.filter =
        conjunction ((if ∃ entry ∈ prior, IsUsable (candidatePaths fields) entry then links
            else (nameFilter question (candidatePaths fields) names).toList) ++
          todayFilters question today (candidatePaths fields)) := by
  rw [filter_infer, inferredFilter]
  constructor
  · rw [passes_conjunction, List.forall_mem_append, passes_subjectFilters_iff,
      passes_todayFilters_iff, and_assoc]
  · exact ⟨_, forall₂_linkFilters prior _, by rw [subjectFilters_eq]⟩

/-- Rows that are JSON objects, judged by equality and membership alone: no other condition is met.
-/
def entriesJudgement : Judgement Json.Entries where
  value := fun row field ↦ (Json.Entries.get? row field).getD .null
  Meets := fun row condition ↦
    match condition with
    | .compared field (.scalar .equal operand) =>
      ((Json.Entries.get? row field.text).getD .null).isEqualTo operand = true
    | .compared field (.oneOf operands) =>
      ∃ operand ∈ operands,
        ((Json.Entries.get? row field.text).getD .null).isEqualTo operand = true
    | _ => False
  meets_equal := fun _ _ _ ↦ Iff.rfl
  meets_oneOf := fun _ _ _ ↦ Iff.rfl

/-- Two districts that were found before, one of them twice, and a single station. -/
def foundDistricts : Json.Entries :=
  [("districts", .array [.object [("id", .number (.integer 7))], .null,
      .object [("id", .number (.integer 7))], .object [("id", .string "8")]]),
    ("stations", .object [("id", .number (.integer 5))])]

/-- The candidates for rows that point to districts and stations. -/
def districtFields : List FieldChoice :=
  [⟨"district_id", true, none⟩, ⟨"station_id", true, none⟩, ⟨"date", true, none⟩,
    ⟨"name", true, none⟩]

/-- A row with the name that is known. -/
def districtRow (date : String) (district station : Json) : Json.Entries :=
  [("date", .string date), ("district_id", district), ("name", .string "Hanoi"),
    ("station_id", station)]

/-- The row passes what is inferred for a question about the day. -/
def PassesToday (row : Json.Entries) : Prop :=
  ∀ filter ∈ (infer "Hanoi today" districtFields foundDistricts (.ofNames ["Hanoi"])
      "2024-05-01").bind Constraints.filter,
    filter.Passes entriesJudgement row

/-- A row of one of the two districts and of the station passes, whether the district is identified
by a number or by a text. A row of another district, of another station or of another day does not,
whatever the name that is known. -/
theorem passes_infer_iff_districts :
    PassesToday (districtRow "2024-05-01" (.number (.integer 7)) (.number (.integer 5))) ∧
    PassesToday (districtRow "2024-05-01" (.string "8") (.number (.integer 5))) ∧
    ¬ PassesToday (districtRow "2024-05-01" (.string "9") (.number (.integer 5))) ∧
    ¬ PassesToday (districtRow "2024-05-01" (.string "8") (.number (.integer 6))) ∧
    ¬ PassesToday (districtRow "2024-04-30" (.string "8") (.number (.integer 5))) := by
  have husable : ∀ entry ∈ foundDistricts, IsUsable (candidatePaths districtFields) entry := by
    decide +kernel
  have habout : isAboutToday "Hanoi today" = true := by decide +kernel
  have hdate : "date" ∈ candidatePaths districtFields := by decide +kernel
  have hpasses : ∀ row, PassesToday row ↔
      (∀ entry ∈ foundDistricts, ∃ identifier ∈ identifiers entry.2,
        (entriesJudgement.value row (linkField entry.1)).isEqualTo identifier = true) ∧
      (entriesJudgement.value row "date").isEqualTo (.string "2024-05-01") = true := by
    intro row
    have hiff := (passes_infer_iff entriesJudgement "Hanoi today" districtFields foundDistricts
      (.ofNames ["Hanoi"]) "2024-05-01" row).1
    simp only [pointsTo_iff] at hiff
    refine hiff.trans ⟨fun h ↦ ⟨fun entry hentry ↦ ?_, h.2.2 habout hdate⟩, fun h ↦ ⟨?_, ?_, ?_⟩⟩
    · exact h.1 entry hentry (husable entry hentry)
    · exact fun entry hentry _ ↦ h.1 entry hentry
    · exact fun hnone ↦ absurd (husable _ List.mem_cons_self) (hnone _ List.mem_cons_self)
    · exact fun _ _ ↦ h.2
  simp only [hpasses]
  decide +kernel

end Inference

end AirInquiry
