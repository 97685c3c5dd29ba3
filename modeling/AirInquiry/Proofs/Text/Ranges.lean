import AirInquiry.Text.Alphanumeric
import AirInquiry.Text.Blank

/-!
# Characters in and out of ranges

A character in one of some ranges is in none of the ranges that lie apart from all of these
(`Text.inRanges_of_apart`). So no blank is a digit or belongs to a word.
-/

set_option autoImplicit false
set_option relaxedAutoImplicit false

namespace AirInquiry.Text

theorem inRanges_eq_false {ranges : List (Nat × Nat)} {code : Nat}
    (h : ∀ range ∈ ranges, code < range.1 ∨ range.2 < code) : inRanges ranges code = false := by
  induction ranges with
  | nil => rfl
  | cons range rest ih =>
    rw [List.forall_mem_cons] at h
    rw [inRanges]
    split
    · rfl
    · next hlow => rw [if_neg (by omega), ih h.2]

theorem exists_range_of_inRanges {ranges : List (Nat × Nat)} {code : Nat}
    (h : inRanges ranges code = true) : ∃ range ∈ ranges, range.1 ≤ code ∧ code ≤ range.2 := by
  induction ranges with
  | nil => cases h
  | cons range rest ih =>
    rw [inRanges] at h
    split at h
    · cases h
    · next hlow =>
      split at h
      · next hhigh => exact ⟨range, .head _, Nat.le_of_not_lt hlow, hhigh⟩
      · obtain ⟨other, hother, hcode⟩ := ih h
        exact ⟨other, .tail _ hother, hcode⟩

/-- Assumes that no range of the one property meets a range of the other. -/
theorem inRanges_of_apart {first second : List (Nat × Nat)}
    (hapart : ∀ range ∈ first, ∀ other ∈ second, range.2 < other.1 ∨ other.2 < range.1)
    {code : Nat} (h : inRanges first code = true) : inRanges second code = false := by
  obtain ⟨range, hrange, hlow, hhigh⟩ := exists_range_of_inRanges h
  refine inRanges_eq_false fun other hother ↦ ?_
  rcases hapart range hrange other hother with hbelow | habove
  · exact .inl (by omega)
  · exact .inr (by omega)

theorem isDecimalDigit_of_isBlank {c : Char} (h : isBlank c = true) : isDecimalDigit c = false :=
  inRanges_of_apart (by decide +kernel) h

theorem isAlphanumeric_of_isBlank {c : Char} (h : isBlank c = true) : isAlphanumeric c = false :=
  inRanges_of_apart (by decide +kernel) h

end AirInquiry.Text
