import AirInquiry.Proofs.Constraints.WellFormed
import AirInquiry.Proofs.Inference.StatedLimit
import AirInquiry.Proofs.Lists
import Mathlib.Algebra.Group.Nat.Defs

/-!
# Inferred constraints are over candidate fields

The filter, the order and the limit are inferred one by one. Whatever a filter is inferred from, its
conditions go along candidate paths and no group in it is empty (`Filter.IsOver`), the order has
candidate paths only, and the limit has at most four digits (`Inference.statedLimit_bounds`).

So constraints can always be made from the parts, and they hold the parts as they were inferred
(`Inference.exists_make_inferred`): nothing is inferred exactly if every part is missing, and what
is inferred mentions only candidate fields (`Inference.infer_isOver_candidates`).
-/

set_option autoImplicit false
set_option relaxedAutoImplicit false

namespace AirInquiry

open GraphQL (Name)

/-! ### Conditions that are built -/

namespace Condition

variable {field relation : String} {operator : Operator} {operand : Option Json}
  {inner condition : Condition}

theorem text_of_nameFor {name : Name} (h : nameFor field = .ok name) : name.text = field := by
  rw [nameFor] at h
  split at h
  · next hname =>
    cases h
    exact Name.text_of_ofString? hname
  · cases h

/-- The names that a condition goes along: relations, and the field at the end. -/
def names : Condition → List Name
  | .compared field _ => [field]
  | .related relation inner => relation :: inner.names

/-- The names that a condition goes along, with points between them. -/
def path (condition : Condition) : String := Text.join "." (condition.names.map Name.text)

theorem path_compared (name : Name) (comparison : Comparison) :
    (compared name comparison).path = name.text := by
  rw [path, names, List.map_singleton, Text.join, List.map_singleton, Text.joinChars,
    String.ofList_toList]

theorem path_related (name : Name) (inner : Condition) :
    (related name inner).path = name.text ++ "." ++ inner.path := by
  obtain ⟨first, rest, hnames⟩ : ∃ first rest, inner.names = first :: rest := by
    cases inner <;> exact ⟨_, _, rfl⟩
  simp only [path, names, hnames, Text.join, List.map_cons, Text.joinChars, String.ofList_append,
    String.ofList_toList]

theorem path_of_compare (h : compare field operator operand = .ok condition) :
    condition.path = field := by
  obtain ⟨name, hname, h⟩ := Filter.exists_of_bind_eq_ok h
  obtain ⟨comparison, -, h⟩ := Filter.exists_of_bind_eq_ok h
  cases h
  rw [path_compared, text_of_nameFor hname]

theorem path_of_through (h : through relation inner = .ok condition) :
    condition.path = relation ++ "." ++ inner.path := by
  obtain ⟨name, hname, h⟩ := Filter.exists_of_bind_eq_ok h
  cases h
  rw [path_related, text_of_nameFor hname]

/-- A relation takes any scalar. -/
theorem compare_scalar (field : String) (relation : Relation) (operand : Scalar) :
    compare field (.scalar relation) (some operand.toJson) =
      (nameFor field).map fun name ↦ .compared name (.scalar relation operand) := by
  have hmake : Comparison.make (.scalar relation) (some operand.toJson) =
      .ok (.scalar relation operand) := by
    cases operand <;> rfl
  rw [compare, hmake]
  cases nameFor field <;> rfl

/-- Membership takes any scalars. -/
theorem compare_oneOf (field : String) (items : List Scalar) :
    compare field .oneOf (some (.array (items.map Scalar.toJson))) =
      (nameFor field).map fun name ↦ .compared name (.oneOf items) := by
  have hitems : (items.map Scalar.toJson).mapM Scalar.ofJson? = some items :=
    mapM_map_written Scalar.ofJson?_toJson items
  have hmake : Comparison.make .oneOf (some (.array (items.map Scalar.toJson))) =
      .ok (.oneOf items) := by
    rw [Comparison.make, Comparison.presentOperand, Comparison.fit, Comparison.itemsOf, hitems]
    · rfl
    · intro hnull
      cases hnull
  rw [compare, hmake]
  cases nameFor field <;> rfl

end Condition

/-- A sort key goes along the path that it was made for. -/
theorem SortKey.field_of_make {field : String} {direction : Direction} {nulls : Option NullPlace}
    {item : SortKey} (h : make field direction nulls = .ok item) : item.field = field := by
  rw [make] at h
  split at h
  · next head tail hnames =>
    cases h
    have hpieces : (head :: tail).map Name.text = Text.split '.' field :=
      map_of_mapM_eq_some (fun hname ↦ Name.text_of_ofString? hname) hnames
    rw [SortKey.field, path, hpieces, Text.join_split]
  · cases h

namespace Inference

/-! ### The limit -/

theorem length_le_of_mem_numbers {text digits : List Char} (h : digits ∈ numbers text) :
    digits.length ≤ digitLimit := by
  obtain ⟨places, hplaces, hlists⟩ := exists_places_numbers text
  rw [← hplaces] at h
  obtain ⟨place, hplace, rfl⟩ := List.mem_map.1 h
  exact ((hlists.mem_iff place).1 hplace).2.1.length_le

/-- Every digit multiplies the bound by ten. -/
theorem foldl_digits_lt {digits : List Char} (h : digits.all Char.isDigit = true) (value : Nat) :
    digits.foldl (fun value c ↦ value * 10 + (c.toNat - '0'.toNat)) value <
      (value + 1) * 10 ^ digits.length := by
  induction digits generalizing value with
  | nil => simp
  | cons c rest ih =>
    rw [List.all_cons, Bool.and_eq_true] at h
    have hdigit : c.toNat ≤ 57 := (GraphQL.isDigit_iff.1 h.1).2
    have hzero : '0'.toNat = 48 := rfl
    have hnext : value * 10 + (c.toNat - '0'.toNat) + 1 ≤ (value + 1) * 10 := by omega
    rw [List.foldl_cons, List.length_cons, Nat.pow_succ']
    calc rest.foldl (fun value c ↦ value * 10 + (c.toNat - '0'.toNat))
          (value * 10 + (c.toNat - '0'.toNat))
        < (value * 10 + (c.toNat - '0'.toNat) + 1) * 10 ^ rest.length := ih h.2 _
      _ ≤ (value + 1) * 10 * 10 ^ rest.length := Nat.mul_le_mul_right _ hnext
      _ = (value + 1) * (10 * 10 ^ rest.length) := Nat.mul_assoc _ _ _

theorem valueOf?_le {digits : List Char} {value : Nat} (h : valueOf? digits = some value)
    (hlength : digits.length ≤ digitLimit) : value ≤ 9999 := by
  rw [valueOf?] at h
  split at h
  · next hdigits =>
    cases h
    have hlt := foldl_digits_lt hdigits 0
    have hpower : 10 ^ digits.length ≤ 10 ^ 4 := Nat.pow_le_pow_right (by decide) hlength
    omega
  · cases h

theorem statedLimit_bounds {question : String} {count : Nat}
    (h : statedLimit question = some count) : 1 ≤ count ∧ count ≤ 9999 := by
  rw [statedLimit] at h
  obtain ⟨digits, hdigits, hvalue⟩ := List.mem_filterMap.1 (List.mem_of_find?_eq_some h)
  have hpositive := List.find?_some h
  exact ⟨of_decide_eq_true hpositive, valueOf?_le hvalue (length_le_of_mem_numbers hdigits)⟩

/-! ### The order -/

variable {question today : String} {fields : List FieldChoice} {prior : Json.Entries}
  {names : NameIndex} {paths : List String}

theorem field_mem_of_mem_orderFor {recency : Option Recency} {item : SortKey}
    (h : item ∈ orderFor recency paths) : item.field ∈ paths := by
  rw [orderFor.eq_def] at h
  split at h
  · cases h
  · split at h
    · obtain ⟨field, hfield, hmake⟩ := List.mem_filterMap.1 h
      obtain ⟨hfield, hpath⟩ := List.mem_filter.1 hfield
      rw [SortKey.field_of_make (eq_ok_of_toOption hmake)]
      exact List.contains_iff_mem.1 hpath
    · cases h

end Inference

/-! ### Filters over paths -/

namespace Filter

/-- A filter over paths: no group is empty, and every condition goes along one of the paths. -/
structure IsOver (paths : List String) (filter : Filter) : Prop where
  isPruned : filter.IsPruned
  path_mem : ∀ condition ∈ filter.leaves, condition.path ∈ paths

variable {paths : List String} {items : List Filter}

theorem isOver_leaf {condition : Condition} (h : condition.path ∈ paths) :
    IsOver paths (.leaf condition) where
  isPruned := trivial
  path_mem := by
    intro other hother
    rw [leaves, List.mem_singleton] at hother
    rw [hother]
    exact h

theorem itemsPruned_of_isOver (h : ∀ item ∈ items, item.IsOver paths) : ItemsPruned items := by
  induction items with
  | nil => trivial
  | cons item rest ih =>
    obtain ⟨hitem, hrest⟩ := List.forall_mem_cons.1 h
    exact ⟨hitem.isPruned, ih hrest⟩

theorem path_mem_of_isOver (h : ∀ item ∈ items, item.IsOver paths) :
    ∀ condition ∈ leavesOfItems items, condition.path ∈ paths := by
  induction items with
  | nil => simp [leavesOfItems]
  | cons item rest ih =>
    obtain ⟨hitem, hrest⟩ := List.forall_mem_cons.1 h
    rw [leavesOfItems]
    intro condition hcondition
    exact (List.mem_append.1 hcondition).elim (hitem.path_mem condition) (ih hrest condition)

theorem isOver_and (hsome : items ≠ []) (h : ∀ item ∈ items, item.IsOver paths) :
    IsOver paths (.and items) :=
  ⟨⟨hsome, itemsPruned_of_isOver h⟩, path_mem_of_isOver h⟩

theorem isOver_or (hsome : items ≠ []) (h : ∀ item ∈ items, item.IsOver paths) :
    IsOver paths (.or items) :=
  ⟨⟨hsome, itemsPruned_of_isOver h⟩, path_mem_of_isOver h⟩

end Filter

namespace Inference

variable {question today : String} {fields : List FieldChoice} {prior : Json.Entries}
  {names : NameIndex} {paths : List String} {relation : Option String} {field name : String}
  {filter : Filter}

/-! ### Filters that are inferred -/

theorem isOver_matching {pattern : Json} (h : matching relation field pattern = .ok filter)
    (hpath : pathFrom relation field ∈ paths) : filter.IsOver paths := by
  obtain ⟨condition, hcondition, h⟩ := Filter.exists_of_bind_eq_ok h
  have hfield := Condition.path_of_compare hcondition
  cases relation with
  | none =>
    cases h
    exact Filter.isOver_leaf (hfield ▸ hpath)
  | some relation =>
    obtain ⟨outer, houter, h⟩ := Filter.exists_of_bind_eq_ok h
    cases h
    rw [pathFrom, ← hfield, ← Condition.path_of_through houter] at hpath
    exact Filter.isOver_leaf hpath

theorem isOver_oneOrAny {filters : List Filter} (hsome : filters ≠ [])
    (h : ∀ item ∈ filters, item.IsOver paths) : (oneOrAny filters).IsOver paths := by
  rw [oneOrAny.eq_def]
  split
  · exact h _ (List.mem_singleton_self _)
  · exact Filter.isOver_or hsome h

theorem isOver_filterByNameAt (h : filterByNameAt relation name paths = .ok filter)
    (hpath : pathFrom relation nameField ∈ paths) : filter.IsOver paths := by
  obtain ⟨plain, hplain, h⟩ := Filter.exists_of_bind_eq_ok h
  have hplain := isOver_matching hplain hpath
  split at h
  · next hlowercase =>
    obtain ⟨lowered, hlowered, h⟩ := Filter.exists_of_bind_eq_ok h
    cases h
    have hlowered := isOver_matching hlowered (List.contains_iff_mem.1 hlowercase)
    refine isOver_oneOrAny (List.cons_ne_nil _ _) ?_
    simpa using ⟨hplain, hlowered⟩
  · cases h
    exact isOver_oneOrAny (List.cons_ne_nil _ _) (by simpa using hplain)

theorem mem_of_least? {texts : List String} {text : String} (h : least? texts = some text) :
    text ∈ texts := by
  induction texts generalizing text with
  | nil => cases h
  | cons first rest ih =>
    rw [least?] at h
    split at h
    · cases h
      exact List.mem_cons_self
    · next other hother =>
      cases h
      split
      · exact List.mem_cons_of_mem _ (ih hother)
      · exact List.mem_cons_self

/-- The relation is what stands in front of the ending. -/
theorem eq_of_namedRelation? {path relation : String} (h : namedRelation? path = some relation) :
    path = relation ++ "." ++ nameField := by
  simp only [namedRelation?] at h
  split at h
  · next hending =>
    split at h
    · cases h
    · cases h
      obtain ⟨front, hfront⟩ := List.isSuffixOf_iff_suffix.1 hending
      rw [← hfront, List.length_append, Nat.add_sub_cancel, List.take_left', String.append_assoc,
        ← String.toList_inj, String.toList_append, String.toList_ofList, hfront]
      rfl
  · cases h

theorem isOver_filterByName (h : filterByName name paths = some filter) : filter.IsOver paths := by
  rw [filterByName] at h
  split at h
  · next hown => exact isOver_filterByNameAt (eq_ok_of_toOption h) (List.contains_iff_mem.1 hown)
  · obtain ⟨relation, hrelation, h⟩ := Option.bind_eq_some_iff.1 h
    obtain ⟨path, hpath, hnamed⟩ := List.mem_filterMap.1 (mem_of_least? hrelation)
    rw [eq_of_namedRelation? hnamed] at hpath
    exact isOver_filterByNameAt (eq_ok_of_toOption h) hpath

theorem path_of_linkCondition? {identifiers : List Scalar} {condition : Condition}
    (h : linkCondition? field identifiers = some condition) : condition.path = field := by
  rw [linkCondition?.eq_def] at h
  split at h
  · cases h
  · exact Condition.path_of_compare (eq_ok_of_toOption h)
  · exact Condition.path_of_compare (eq_ok_of_toOption h)

theorem isOver_linkFilter? {entry : String × Json} (h : linkFilter? paths entry = some filter) :
    filter.IsOver paths := by
  simp only [linkFilter?] at h
  split at h
  · next hfield =>
    obtain ⟨condition, hcondition, rfl⟩ := Option.map_eq_some_iff.1 h
    refine Filter.isOver_leaf ?_
    rw [path_of_linkCondition? hcondition]
    exact List.contains_iff_mem.1 hfield
  · cases h

theorem isOver_of_mem_subjectFilters (h : filter ∈ subjectFilters question paths prior names) :
    filter.IsOver paths := by
  rw [subjectFilters] at h
  split at h
  · obtain ⟨name, -, hname⟩ := Option.bind_eq_some_iff.1 (Option.mem_toList.1 h)
    exact isOver_filterByName hname
  · obtain ⟨entry, -, hentry⟩ := List.mem_filterMap.1 h
    exact isOver_linkFilter? hentry

theorem isOver_of_mem_todayFilters (h : filter ∈ todayFilters question today paths) :
    filter.IsOver paths := by
  rw [todayFilters] at h
  split at h
  · next htoday =>
    obtain ⟨condition, hcondition, rfl⟩ := Option.map_eq_some_iff.1 (Option.mem_toList.1 h)
    refine Filter.isOver_leaf ?_
    rw [Condition.path_of_compare (eq_ok_of_toOption hcondition)]
    exact List.contains_iff_mem.1 (Bool.and_eq_true_iff.1 htoday).2
  · cases h

theorem isOver_conjunction {filters : List Filter} (h : ∀ item ∈ filters, item.IsOver paths)
    (hfilter : conjunction filters = some filter) : filter.IsOver paths := by
  rw [conjunction.eq_def] at hfilter
  split at hfilter
  · cases hfilter
  · cases hfilter
    exact h _ (List.mem_singleton_self _)
  · next hsome _ =>
    cases hfilter
    exact Filter.isOver_and hsome h

/-! ### All parts -/

/-- The paths of the candidate fields. -/
def candidatePaths (fields : List FieldChoice) : List String :=
  fields.map fun field ↦ FieldChoice.unindexedPath field.path

/-- The order that is inferred; it may have no keys. -/
def inferredOrder (question : String) (fields : List FieldChoice) : List SortKey :=
  orderFor (recencyOf question) (candidatePaths fields)

/-- The limit that is inferred, if one is. -/
def inferredLimit (question : String) : Option Int := limitFor question (recencyOf question)

/-- The filter that is inferred, if one is. -/
def inferredFilter (question : String) (fields : List FieldChoice) (prior : Json.Entries)
    (names : NameIndex) (today : String) : Option Filter :=
  conjunction (subjectFilters question (candidatePaths fields) prior names ++
    todayFilters question today (candidatePaths fields))

theorem infer_eq (question : String) (fields : List FieldChoice) (prior : Json.Entries)
    (names : NameIndex) (today : String) :
    infer question fields prior names today =
      if (inferredFilter question fields prior names today).isNone &&
          (inferredOrder question fields).isEmpty && (inferredLimit question).isNone then none
      else (Constraints.make (inferredFilter question fields prior names today)
        (inferredOrder question fields) (inferredLimit question) none).toOption :=
  rfl

theorem inferredLimit_bounds {count : Int} (h : inferredLimit question = some count) :
    1 ≤ count ∧ count ≤ 9999 := by
  rw [inferredLimit, limitFor] at h
  split at h
  · next stated hstated =>
    cases h
    obtain ⟨hlow, hhigh⟩ := statedLimit_bounds hstated
    omega
  · obtain ⟨_, -, rfl⟩ := Option.map_eq_some_iff.1 h
    decide

theorem isOver_inferredFilter (h : inferredFilter question fields prior names today = some filter) :
    filter.IsOver (candidatePaths fields) := by
  refine isOver_conjunction (fun item hitem ↦ ?_) h
  exact (List.mem_append.1 hitem).elim isOver_of_mem_subjectFilters isOver_of_mem_todayFilters

/-- The parts are never refused. -/
theorem exists_make_inferred (question : String) (fields : List FieldChoice) (prior : Json.Entries)
    (names : NameIndex) (today : String) :
    ∃ made, Constraints.make (inferredFilter question fields prior names today)
        (inferredOrder question fields) (inferredLimit question) none = .ok made ∧
      made.filter = inferredFilter question fields prior names today ∧
      made.sortKeys = inferredOrder question fields ∧
      (made.limit.map fun count ↦ (count.toNat : Int)) = inferredLimit question ∧
      made.offset = none := by
  have hword : ∀ count ∈ inferredLimit question,
      ((UInt32.ofNat count.toNat).toNat : Int) = count := by
    intro count hcount
    obtain ⟨hlow, hhigh⟩ := inferredLimit_bounds hcount
    rw [UInt32.toNat_ofNat_of_lt' (by rw [UInt32.size]; omega)]
    omega
  have hprune : (inferredFilter question fields prior names today).bind Filter.prune =
      inferredFilter question fields prior names today := by
    cases hfilter : inferredFilter question fields prior names today with
    | none => rfl
    | some filter => exact Filter.prune_eq_self (isOver_inferredFilter hfilter).isPruned
  have hlimit : (((inferredLimit question).map fun count ↦ UInt32.ofNat count.toNat).map
      fun count ↦ (count.toNat : Int)) = inferredLimit question := by
    cases hcount : inferredLimit question with
    | none => rfl
    | some count => exact congrArg some (hword count hcount)
  -- The parts are already as constraints hold them: the limit is a word and nothing is pruned.
  let made : Constraints := {
    filter := inferredFilter question fields prior names today
    sortKeys := inferredOrder question fields
    limit := (inferredLimit question).map fun count ↦ UInt32.ofNat count.toNat
    offset := none
    filter_isPruned := fun filter hfilter ↦ (isOver_inferredFilter hfilter).isPruned
    limit_pos := by
      intro word hmem
      obtain ⟨count, hcount, rfl⟩ := Option.map_eq_some_iff.1 hmem
      have hlow := (inferredLimit_bounds hcount).1
      have hsame := hword count hcount
      have hzero : (0 : UInt32).toNat = 0 := rfl
      rw [UInt32.lt_iff_toNat_lt]
      omega }
  exact ⟨made, Constraints.make_eq_ok_iff.2 ⟨hprune.symm, rfl, hlimit, rfl⟩, rfl, rfl, hlimit, rfl⟩

variable {constraints : Constraints}

theorem infer_eq_none_iff : infer question fields prior names today = none ↔
    inferredFilter question fields prior names today = none ∧
      inferredOrder question fields = [] ∧ inferredLimit question = none := by
  obtain ⟨made, hmake, -⟩ := exists_make_inferred question fields prior names today
  rw [infer_eq, hmake, Except.toOption]
  simp only [Bool.and_eq_true, Option.isNone_iff_eq_none, List.isEmpty_iff, ite_eq_left_iff,
    reduceCtorEq, imp_false, not_not, and_assoc]

/-- What is inferred holds the parts as they were inferred. -/
theorem parts_of_infer (h : infer question fields prior names today = some constraints) :
    constraints.filter = inferredFilter question fields prior names today ∧
      constraints.sortKeys = inferredOrder question fields ∧
      (constraints.limit.map fun count ↦ (count.toNat : Int)) = inferredLimit question ∧
      constraints.offset = none := by
  obtain ⟨made, hmake, hparts⟩ := exists_make_inferred question fields prior names today
  rw [infer_eq, hmake, Except.toOption] at h
  split at h
  · cases h
  · cases h
    exact hparts

/-- The paths that constraints mention: those of the sort keys and those of the conditions. -/
def mentionedPaths (constraints : Constraints) : List String :=
  constraints.sortKeys.map SortKey.field ++
    ((constraints.filter.map Filter.leaves).getD []).map Condition.path

theorem mem_candidatePaths_of_infer
    (h : infer question fields prior names today = some constraints) :
    ∀ path ∈ mentionedPaths constraints, path ∈ candidatePaths fields := by
  obtain ⟨hfilter, hsortKeys, -⟩ := parts_of_infer h
  intro path hpath
  rw [mentionedPaths, hfilter, hsortKeys] at hpath
  rcases List.mem_append.1 hpath with hkey | hcondition
  · obtain ⟨item, hitem, rfl⟩ := List.mem_map.1 hkey
    exact field_mem_of_mem_orderFor hitem
  · obtain ⟨condition, hmem, rfl⟩ := List.mem_map.1 hcondition
    cases hinferred : inferredFilter question fields prior names today with
    | none =>
      rw [hinferred] at hmem
      cases hmem
    | some filter =>
      rw [hinferred] at hmem
      exact (isOver_inferredFilter hinferred).path_mem condition hmem

/-- The rules find nothing exactly if there is no filter, no order and no limit: what they find is
never refused. The constraints that they find mention only candidate fields, and have a limit of at
most four digits and no offset. -/
theorem infer_isOver_candidates (question : String) (fields : List FieldChoice)
    (prior : Json.Entries) (names : NameIndex) (today : String) :
    (infer question fields prior names today = none ↔
      inferredFilter question fields prior names today = none ∧
        inferredOrder question fields = [] ∧ inferredLimit question = none) ∧
    (∃ made, Constraints.make (inferredFilter question fields prior names today)
      (inferredOrder question fields) (inferredLimit question) none = .ok made) ∧
    ∀ constraints ∈ infer question fields prior names today,
      (∀ path ∈ mentionedPaths constraints,
        ∃ field ∈ fields, FieldChoice.unindexedPath field.path = path) ∧
      (∀ count ∈ constraints.limit, 1 ≤ count.toNat ∧ count.toNat ≤ 9999) ∧
      constraints.offset = none := by
  obtain ⟨made, hmake, -⟩ := exists_make_inferred question fields prior names today
  refine ⟨infer_eq_none_iff, ⟨made, hmake⟩, fun constraints hinfer ↦ ?_⟩
  obtain ⟨-, -, hlimit, hoffset⟩ := parts_of_infer hinfer
  refine ⟨fun path hpath ↦ ?_, fun count hcount ↦ ?_, hoffset⟩
  · exact List.mem_map.1 (mem_candidatePaths_of_infer hinfer path hpath)
  · rw [hcount] at hlimit
    have hbounds : 1 ≤ (count.toNat : Int) ∧ (count.toNat : Int) ≤ 9999 :=
      inferredLimit_bounds hlimit.symm
    omega

/-- The dates of the rows of a district that was found before. -/
theorem infer_isOver_candidates_district :
    ∃ constraints, infer "latest rows of today" [⟨"rows[0].date", true, none⟩, ⟨"date", true, none⟩,
        ⟨"district_id", true, none⟩] [("districts", .array [.object [("id", .string "7")]])]
        ⟨[]⟩ "2024-05-01" = some constraints ∧
      mentionedPaths constraints = ["date", "district_id", "date"] ∧
      (∀ path ∈ mentionedPaths constraints, ∃ field ∈ [FieldChoice.mk "rows[0].date" true none,
        ⟨"date", true, none⟩, ⟨"district_id", true, none⟩],
        FieldChoice.unindexedPath field.path = path) ∧
      (∀ count ∈ constraints.limit, 1 ≤ count.toNat ∧ count.toNat ≤ 9999) := by
  have hpaths : (infer "latest rows of today" [⟨"rows[0].date", true, none⟩, ⟨"date", true, none⟩,
      ⟨"district_id", true, none⟩] [("districts", .array [.object [("id", .string "7")]])]
      ⟨[]⟩ "2024-05-01").map mentionedPaths = some ["date", "district_id", "date"] := by
    decide +kernel
  obtain ⟨constraints, hinfer, hmentioned⟩ := Option.map_eq_some_iff.1 hpaths
  obtain ⟨-, -, hfound⟩ := infer_isOver_candidates "latest rows of today"
    [⟨"rows[0].date", true, none⟩, ⟨"date", true, none⟩, ⟨"district_id", true, none⟩]
    [("districts", .array [.object [("id", .string "7")]])] ⟨[]⟩ "2024-05-01"
  obtain ⟨hmem, hlimit, -⟩ := hfound constraints hinfer
  exact ⟨constraints, hinfer, hmentioned, hmem, hlimit⟩

end Inference

end AirInquiry
