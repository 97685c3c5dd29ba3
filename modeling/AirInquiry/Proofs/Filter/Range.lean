import AirInquiry.Proofs.Inference.Candidates
import AirInquiry.Proofs.Json.Ordered
import AirInquiry.Proofs.Number.Rounding

/-!
# Ranges of integers

A range is made of a field and two bounds, or read from an object or an array of these parts
(`Condition.StatesRange`). Its bounds are compared as floating point numbers, so two integers count
as being in order if they are, and also if they are rounded to the same floating point number
(`Condition.exists_range_iff`).

Rounding keeps the order, so no range with its bounds in order is refused. Reversed bounds get
through where the floating point numbers lie further apart than the integers, the first ones right
behind `2 ^ 53` (`Condition.not_exists_range_iff_le`).
-/

set_option autoImplicit false
set_option relaxedAutoImplicit false

namespace AirInquiry

namespace Condition

variable {field : String} {low high : Int} {operator : Option Operator} {draft : Draft}
  {entries : Json.Entries}

/-! ### Parts of a written condition -/

/-- Of the entries of an object only those count that have the key of a part, in whatever order they
come. Here no inner condition is given. -/
theorem ofEntries_eq (hsorted : entries.IsSorted)
    (hfield : ∀ value ∈ entries.get? "field", value = .string field)
    (hoperator : ∀ value ∈ entries.get? "op",
      Json.Decode.optional Operator.ofJson value = .ok operator)
    (hnested : ∀ value ∈ entries.get? "nested", value = .null) (hinner : draft.inner = none) :
    ofEntries draft entries = .ok {
      field := if (entries.get? "field").isSome then some field else draft.field
      operator := if (entries.get? "op").isSome then operator else draft.operator
      operand := (entries.get? "value").elim draft.operand fun value ↦
        Comparison.presentOperand (some value)
      inner := none } := by
  induction entries generalizing draft with
  | nil =>
    obtain ⟨field, operator, operand, inner⟩ := draft
    cases hinner
    rfl
  | cons entry rest ih =>
    obtain ⟨key, value⟩ := entry
    have hself := Json.Entries.get?_cons_self key value rest
    have hgone := Json.Entries.get?_eq_none_of_isSorted_cons hsorted
    have hother : ∀ other, other ≠ key →
        Json.Entries.get? ((key, value) :: rest) other = Json.Entries.get? rest other :=
      fun other hne ↦ Json.Entries.get?_cons_of_ne hne value rest
    have hlater : ∀ {other : String} {later : Json}, Json.Entries.get? rest other = some later →
        Json.Entries.get? ((key, value) :: rest) other = some later :=
      Json.Entries.get?_cons_of_isSorted hsorted
    have hread := fun (draft : Draft) (hinner : draft.inner = none) ↦
      @ih draft (Json.Entries.isSorted_cons.1 hsorted).2
        (fun later hmem ↦ hfield later (hlater hmem))
        (fun later hmem ↦ hoperator later (hlater hmem))
        (fun later hmem ↦ hnested later (hlater hmem)) hinner
    rw [ofEntries.eq_def]
    dsimp only
    -- One case for each part that the key may name, and one for all other keys.
    split
    · cases hfield value hself
      rw [hself, hother "op" (by decide), hother "value" (by decide)]
      have hdraft := hread { draft with field := some field } hinner
      rwa [hgone] at hdraft
    · rw [hoperator value hself, hself, hother "field" (by decide), hother "value" (by decide)]
      have hdraft := hread { draft with operator } hinner
      rwa [hgone] at hdraft
    · rw [hself, hother "field" (by decide), hother "op" (by decide)]
      have hdraft := hread { draft with operand := Comparison.presentOperand (some value) } hinner
      rwa [hgone] at hdraft
    · cases hnested value hself
      rw [hother "field" (by decide), hother "op" (by decide), hother "value" (by decide)]
      exact hread { draft with inner := none } rfl
    · next hnotField hnotOperator hnotOperand _ =>
      rw [hother "field" (Ne.symm hnotField), hother "op" (Ne.symm hnotOperator),
        hother "value" (Ne.symm hnotOperand)]
      exact hread draft hinner

/-- The operand of a range. -/
def range (low high : Int) : Json := .array [.ofInt low, .ofInt high]

/-- The values that state a range for a field: an object with field, operator and operand, whatever
else it holds but an inner condition, or an array of these parts. -/
inductive StatesRange (field : String) (low high : Int) : Json → Prop where
  | entries {entries : Json.Entries} {operator : Json} (hsorted : entries.IsSorted)
      (hfield : entries.get? "field" = some (.string field))
      (hoperator : entries.get? "op" = some operator)
      (hbetween : Operator.ofJson operator = .ok .between)
      (hoperand : entries.get? "value" = some (range low high))
      (hnested : ∀ inner ∈ entries.get? "nested", inner = .null) :
      StatesRange field low high (.object entries)
  | items {operator : Json} {rest : List Json} (hbetween : Operator.ofJson operator = .ok .between)
      (hrest : rest = [] ∨ rest = [.null]) :
      StatesRange field low high (.array (.string field :: operator :: range low high :: rest))

theorem optional_between {operator : Json} (h : Operator.ofJson operator = .ok .between) :
    Json.Decode.optional Operator.ofJson operator = .ok (some .between) := by
  cases operator with
  | null => cases h
  | _ => exact congrArg (Except.map some) h

/-- Reading a range is making it from its parts. -/
theorem ofJson_of_statesRange {value : Json} (h : StatesRange field low high value) :
    ofJson value =
      (compare field .between (some (range low high))).mapError Refusal.asMismatch := by
  cases h with
  | @entries entries operator hsorted hfield hoperator hbetween hoperand hnested =>
    have honlyField : ∀ value ∈ entries.get? "field", value = .string field :=
      fun value hvalue ↦ (Option.some.inj (hfield.symm.trans hvalue)).symm
    have honlyOperator : ∀ value ∈ entries.get? "op",
        Json.Decode.optional Operator.ofJson value = .ok (some .between) := by
      intro value hvalue
      rw [← Option.some.inj (hoperator.symm.trans hvalue)]
      exact optional_between hbetween
    have hread : ofEntries {} entries = _ :=
      ofEntries_eq hsorted honlyField honlyOperator hnested rfl
    rw [hfield, hoperator, hoperand] at hread
    rw [ofJson, hread]
    rfl
  | items hbetween hrest =>
    rcases hrest with rfl | rfl
    · simp only [ofJson, ofItems, Json.Decode.string, optional_between hbetween, bind, Except.bind]
      rfl
    · simp only [ofJson, ofItems, Json.Decode.string, optional_between hbetween, bind, Except.bind]
      rfl

theorem exists_compare_range_iff : (∃ condition,
      compare field .between (some (range low high)) = .ok condition) ↔
    GraphQL.isName field = true ∧
      Scalar.reversed (.number (.integer low)) (.number (.integer high)) = false := by
  have hbounds : Comparison.boundsOf (some (range low high)) =
      if h : Scalar.reversed (.number (.integer low)) (.number (.integer high)) = false then
        .ok (.between (.number (.integer low)) (.number (.integer high)) h)
      else .error (.boundsReversed (Binary64.ofInt low) (Binary64.ofInt high)) := rfl
  have hmake : Comparison.make .between (some (range low high)) =
      (Comparison.boundsOf (some (range low high))).mapError (.unfitOperand .between) := rfl
  rw [compare, hmake, hbounds, nameFor]
  cases hname : GraphQL.isName field with
  | false =>
    rw [GraphQL.Name.ofString?_eq_none.2 hname]
    simp [bind, Except.bind]
  | true =>
    have hfield : GraphQL.Name.ofString? field = some ⟨field, hname⟩ :=
      GraphQL.Name.ofString?_text ⟨field, hname⟩
    rw [hfield]
    split_ifs with hordered <;> simp [bind, Except.bind, Except.mapError, hordered]

end Condition

/-! ### Bounds in order -/

/-- The integer has at most 64 bits, with or without a sign. -/
def FitsWord (value : Int) : Prop := -2 ^ 63 ≤ value ∧ value < 2 ^ 64

/-- The two integers are rounded to the same floating point number. -/
def RoundAlike (low high : Int) : Prop :=
  ∃ rounded, Binary64.IsRounded low rounded ∧ Binary64.IsRounded high rounded

variable {low high : Int}

theorem FitsWord.exists_isRounded (h : FitsWord low) : ∃ rounded, Binary64.IsRounded low rounded ∧
    (Binary64.ofInt low).units = rounded * Binary64.unitsOfOne := by
  apply Binary64.exists_isRounded_units_ofInt
  obtain ⟨hlow, hhigh⟩ := h
  by_cases hzero : low.natAbs = 0
  · rw [hzero, Nat.log2_zero]
    decide
  · have hlog : low.natAbs.log2 < 65 := (Nat.log2_lt hzero).2 (by omega)
    omega

theorem reversed_eq_false_iff (hlow : FitsWord low) (hhigh : FitsWord high) :
    Scalar.reversed (.number (.integer low)) (.number (.integer high)) = false ↔
      low ≤ high ∨ RoundAlike low high := by
  obtain ⟨roundedLow, hroundedLow, hunitsLow⟩ := hlow.exists_isRounded
  obtain ⟨roundedHigh, hroundedHigh, hunitsHigh⟩ := hhigh.exists_isRounded
  have hpos : (0 : Int) < Binary64.unitsOfOne := by
    exact_mod_cast Nat.two_pow_pos Binary64.leastExponent.natAbs
  have hreversed : Scalar.reversed (.number (.integer low)) (.number (.integer high)) =
      (Binary64.ofInt high).less (Binary64.ofInt low) := rfl
  rw [hreversed, Binary64.less, decide_eq_false_iff_not, hunitsLow, hunitsHigh, not_lt,
    mul_le_mul_iff_left₀ hpos]
  constructor
  · intro hle
    rcases le_or_gt low high with hordered | hless
    · exact .inl hordered
    · have hsame : roundedLow = roundedHigh :=
        le_antisymm hle (hroundedHigh.le hroundedLow hless.le)
      exact .inr ⟨roundedLow, hroundedLow, hsame ▸ hroundedHigh⟩
  · rintro (hordered | ⟨rounded, hlow, hhigh⟩)
    · exact hroundedLow.le hroundedHigh hordered
    · rw [hroundedLow.eq hlow, hroundedHigh.eq hhigh]

theorem RoundAlike.eq_of_natAbs_le (h : RoundAlike low high) (hlow : low.natAbs ≤ 2 ^ 53)
    (hhigh : high.natAbs ≤ 2 ^ 53) : low = high := by
  obtain ⟨rounded, hroundedLow, hroundedHigh⟩ := h
  rw [← hroundedLow.eq_self (Binary64.isRepresentable_of_natAbs_le hlow),
    hroundedHigh.eq_self (Binary64.isRepresentable_of_natAbs_le hhigh)]

theorem RoundAlike.sub_le (h : RoundAlike low high) (hlow : FitsWord low)
    (hhigh : FitsWord high) : low - high ≤ 2048 := by
  obtain ⟨rounded, hroundedLow, hroundedHigh⟩ := h
  unfold FitsWord at hlow hhigh
  have hlowError := hroundedLow.natAbs_sub_le (by omega)
  have hhighError := hroundedHigh.natAbs_sub_le (by omega)
  omega

namespace Condition

/-- A range of integers is made, or read, exactly if its field is a name and its bounds are in order
or rounded to the same floating point number. Bounds of at most `2 ^ 53` in magnitude are told apart
in this way, and so are bounds that are more than 2048 apart. -/
theorem exists_range_iff (field : String) {low high : Int} (hlow : FitsWord low)
    (hhigh : FitsWord high) :
    ((∃ condition, compare field .between (some (range low high)) = .ok condition) ↔
      GraphQL.isName field = true ∧ (low ≤ high ∨ RoundAlike low high)) ∧
    (∀ value, StatesRange field low high value →
      ((∃ condition, ofJson value = .ok condition) ↔
        GraphQL.isName field = true ∧ (low ≤ high ∨ RoundAlike low high))) ∧
    (RoundAlike low high → low - high ≤ 2048 ∧
      (low.natAbs ≤ 2 ^ 53 → high.natAbs ≤ 2 ^ 53 → low = high)) := by
  have hmade : (∃ condition, compare field .between (some (range low high)) = .ok condition) ↔
      GraphQL.isName field = true ∧ (low ≤ high ∨ RoundAlike low high) := by
    rw [exists_compare_range_iff, reversed_eq_false_iff hlow hhigh]
  refine ⟨hmade, fun value hvalue ↦ ?_, fun halike ↦ ?_⟩
  · rw [ofJson_of_statesRange hvalue, ← hmade]
    constructor
    · rintro ⟨condition, hcondition⟩
      exact ⟨condition, eq_ok_of_mapError hcondition⟩
    · rintro ⟨condition, hcondition⟩
      exact ⟨condition, by rw [hcondition]; rfl⟩
  · exact ⟨halike.sub_le hlow hhigh, halike.eq_of_natAbs_le⟩

/-- A range that ends before it starts is not made, and not read from an object with one more entry.
-/
theorem exists_range_iff_hours :
    FitsWord 20 ∧ FitsWord 3 ∧
    (¬ ∃ condition, compare "hour" .between (some (range 20 3)) = .ok condition) ∧
    ¬ ∃ condition, ofJson (.object [("field", .string "hour"), ("nested", .null),
      ("note", .bool true), ("op", .string "between"), ("value", range 20 3)]) = .ok condition := by
  have hlow : FitsWord 20 := by unfold FitsWord; omega
  have hhigh : FitsWord 3 := by unfold FitsWord; omega
  obtain ⟨hmade, hread, halike⟩ := exists_range_iff "hour" hlow hhigh
  have hreversed : ¬ ((20 : Int) ≤ 3 ∨ RoundAlike 20 3) := by
    rintro (hordered | hsame)
    · omega
    · exact absurd ((halike hsame).2 (by decide) (by decide)) (by decide)
  refine ⟨hlow, hhigh, fun h ↦ hreversed (hmade.1 h).2, fun h ↦ hreversed ((hread _ ?_).1 h).2⟩
  exact .entries (by decide) rfl rfl rfl rfl fun inner hinner ↦ (Option.some.inj hinner).symm

/-- The bounds `2 ^ 53 + 1` and `2 ^ 53` are reversed and make a range nevertheless. -/
theorem not_exists_range_iff_le :
    ¬ ((∃ condition, compare "hour" .between
        (some (range 9007199254740993 9007199254740992)) = .ok condition) ↔
      (9007199254740993 : Int) ≤ 9007199254740992) := by
  intro h
  have hordered := h.1 (exists_compare_range_iff.2 ⟨by decide, by decide +kernel⟩)
  omega

end Condition

end AirInquiry
