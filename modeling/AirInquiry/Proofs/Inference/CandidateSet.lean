import AirInquiry.Proofs.Inference.Candidates
import Mathlib.Data.String.Basic

/-!
# Candidates as a set

The rules ask of the candidate paths only which paths are among them, and for the least relation
that leads to a name. Neither depends on the order of the paths or on repetitions, so the rules find
the same constraints for all fields with the same candidate paths, however these are enumerated
(`infer_eq_of_sameCandidates`). Indexes within the paths, descriptions and marks of the fields play
no part either.
-/

set_option autoImplicit false
set_option relaxedAutoImplicit false

namespace AirInquiry.Inference

variable {paths others : List String}

/-! ### The least text -/

theorem least?_eq_none_iff {texts : List String} : least? texts = none ↔ texts = [] := by
  cases texts with
  | nil => exact iff_of_true rfl rfl
  | cons first rest =>
    refine iff_of_false ?_ (List.cons_ne_nil first rest)
    rw [least?]
    cases least? rest <;> exact Option.some_ne_none _

theorem le_of_least? {texts : List String} {text : String} (h : least? texts = some text) :
    ∀ other ∈ texts, text ≤ other := by
  induction texts generalizing text with
  | nil => cases h
  | cons first rest ih =>
    rw [least?] at h
    cases hrest : least? rest with
    | none =>
      rw [hrest] at h
      cases h
      rw [least?_eq_none_iff.1 hrest, List.forall_mem_singleton]
    | some second =>
      have hsecond : ∀ other ∈ rest, second ≤ other := ih hrest
      rw [hrest] at h
      cases h
      rw [List.forall_mem_cons]
      split_ifs with hless
      · exact ⟨hless.le, hsecond⟩
      · have hfirst : first ≤ second := not_lt.1 hless
        exact ⟨le_rfl, fun other hother ↦ hfirst.trans (hsecond other hother)⟩

/-- The least text depends only on which texts there are. -/
theorem least?_congr {texts others : List String} (h : ∀ text, text ∈ texts ↔ text ∈ others) :
    least? texts = least? others := by
  cases hfirst : least? texts with
  | none =>
    rw [least?_eq_none_iff] at hfirst
    subst hfirst
    have hempty : others = [] := List.eq_nil_iff_forall_not_mem.2 fun text hmem ↦
      List.not_mem_nil ((h text).2 hmem)
    rw [hempty]
    rfl
  | some first =>
    cases hsecond : least? others with
    | none =>
      rw [least?_eq_none_iff] at hsecond
      subst hsecond
      exact absurd ((h first).1 (mem_of_least? hfirst)) List.not_mem_nil
    | some second =>
      have hle : first ≤ second := le_of_least? hfirst second ((h second).2 (mem_of_least? hsecond))
      have hge : second ≤ first := le_of_least? hsecond first ((h first).1 (mem_of_least? hfirst))
      rw [le_antisymm hle hge]

/-! ### What the rules ask of the candidates -/

/-- The same paths are candidates. -/
def SameCandidates (paths others : List String) : Prop := ∀ path, path ∈ paths ↔ path ∈ others

/-- The relation through which a name is looked for, if there is one. -/
def chosenRelation (paths : List String) : Option String := least? (paths.filterMap namedRelation?)

/-- The constraints that a question asks for, where the candidate paths are enumerated. -/
def inferOver (question : String) (paths : List String) (prior : Json.Entries) (names : NameIndex)
    (today : String) : Option Constraints :=
  let recency := recencyOf question
  let order := orderFor recency paths
  let limit := limitFor question recency
  let filter := conjunction
    (subjectFilters question paths prior names ++ todayFilters question today paths)
  if filter.isNone && order.isEmpty && limit.isNone then none
  else (Constraints.make filter order limit none).toOption

theorem infer_eq_inferOver (question : String) (fields : List FieldChoice) (prior : Json.Entries)
    (names : NameIndex) (today : String) :
    infer question fields prior names today =
      inferOver question (candidatePaths fields) prior names today :=
  rfl

namespace SameCandidates

theorem contains_eq (h : SameCandidates paths others) (path : String) :
    paths.contains path = others.contains path := by
  rw [Bool.eq_iff_iff, List.contains_iff_mem, List.contains_iff_mem]
  exact h path

theorem chosenRelation_eq (h : SameCandidates paths others) :
    chosenRelation paths = chosenRelation others := by
  refine least?_congr fun relation ↦ ?_
  rw [List.mem_filterMap, List.mem_filterMap]
  exact exists_congr fun path ↦ and_congr_left fun _ ↦ h path

theorem orderFor_eq (h : SameCandidates paths others) (recency : Option Recency) :
    orderFor recency paths = orderFor recency others := by
  have hcontains : paths.contains = others.contains := funext h.contains_eq
  rw [orderFor.eq_def, orderFor.eq_def, hcontains]

theorem linkFilters_eq (h : SameCandidates paths others) (prior : Json.Entries) :
    linkFilters prior paths = linkFilters prior others := by
  refine List.filterMap_congr fun entry _ ↦ ?_
  rw [linkFilter?, linkFilter?, h.contains_eq]

theorem filterByNameAt_eq (h : SameCandidates paths others) (relation : Option String)
    (name : String) : filterByNameAt relation name paths = filterByNameAt relation name others := by
  rw [filterByNameAt, filterByNameAt, h.contains_eq]

theorem filterByName_eq (h : SameCandidates paths others) (name : String) :
    filterByName name paths = filterByName name others := by
  have hrelation := h.chosenRelation_eq
  unfold chosenRelation at hrelation
  simp only [filterByName, h.contains_eq, hrelation, h.filterByNameAt_eq]

theorem subjectFilters_eq (h : SameCandidates paths others) (question : String)
    (prior : Json.Entries) (names : NameIndex) :
    subjectFilters question paths prior names = subjectFilters question others prior names := by
  simp only [subjectFilters, h.linkFilters_eq, h.filterByName_eq]

theorem todayFilters_eq (h : SameCandidates paths others) (question today : String) :
    todayFilters question today paths = todayFilters question today others := by
  rw [todayFilters, todayFilters, h.contains_eq]

theorem inferOver_eq (h : SameCandidates paths others) (question : String) (prior : Json.Entries)
    (names : NameIndex) (today : String) :
    inferOver question paths prior names today = inferOver question others prior names today := by
  simp only [inferOver, h.orderFor_eq, h.subjectFilters_eq, h.todayFilters_eq]

end SameCandidates

/-- Fields with the same candidate paths give the same constraints, and a name is looked for through
the same relation. The same holds of every enumeration of the candidate paths. -/
theorem infer_eq_of_sameCandidates {fields others : List FieldChoice}
    (h : SameCandidates (candidatePaths fields) (candidatePaths others)) (question : String)
    (prior : Json.Entries) (names : NameIndex) (today : String) :
    infer question fields prior names today = infer question others prior names today ∧
    chosenRelation (candidatePaths fields) = chosenRelation (candidatePaths others) ∧
    ∀ paths, SameCandidates paths (candidatePaths fields) →
      inferOver question paths prior names today = infer question fields prior names today ∧
      chosenRelation paths = chosenRelation (candidatePaths fields) := by
  rw [infer_eq_inferOver, infer_eq_inferOver]
  refine ⟨h.inferOver_eq question prior names today, h.chosenRelation_eq, fun paths hpaths ↦ ?_⟩
  exact ⟨hpaths.inferOver_eq question prior names today, hpaths.chosenRelation_eq⟩

/-- The names of stations and districts, with places in lists, and a date. -/
def placedFields : List FieldChoice :=
  [⟨"stations[2].name", false, some "the station"⟩, ⟨"districts.name", true, none⟩,
    ⟨"date", true, none⟩, ⟨"districts[0].name", false, none⟩]

/-- The same paths in another order, each of them once. -/
def plainFields : List FieldChoice :=
  [⟨"date", false, none⟩, ⟨"districts.name", true, none⟩, ⟨"stations.name", true, none⟩]

/-- Of the two relations that lead to a name the least one is chosen in both cases. -/
theorem infer_eq_of_sameCandidates_placed :
    SameCandidates (candidatePaths placedFields) (candidatePaths plainFields) ∧
    chosenRelation (candidatePaths placedFields) = some "districts" ∧
    infer "latest in Hanoi" placedFields [] (.ofNames ["Hanoi"]) "2024-05-01" =
      infer "latest in Hanoi" plainFields [] (.ofNames ["Hanoi"]) "2024-05-01" := by
  have hplaced : candidatePaths placedFields =
      ["stations.name", "districts.name", "date", "districts.name"] := by decide +kernel
  have hplain : candidatePaths plainFields = ["date", "districts.name", "stations.name"] := by
    decide +kernel
  have hsame : SameCandidates (candidatePaths placedFields) (candidatePaths plainFields) := by
    rw [hplaced, hplain]
    intro path
    simp only [List.mem_cons, List.not_mem_nil, or_false]
    tauto
  exact ⟨hsame, by decide +kernel, (infer_eq_of_sameCandidates hsame "latest in Hanoi" []
    (.ofNames ["Hanoi"]) "2024-05-01").1⟩

end AirInquiry.Inference
