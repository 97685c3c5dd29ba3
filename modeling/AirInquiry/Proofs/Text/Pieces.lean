import AirInquiry.Text.Search
import Mathlib.Tactic.Common

/-!
# Pieces of a text

A text is cut at every occurrence of a mark, and a text without the mark is one piece
(`Text.splitChars_of_notMem`). Cutting undoes joining: pieces without the mark that are joined by
it are the pieces that the joined text is cut into (`Text.split_join`). Joining undoes cutting for
every text (`Text.join_split`).
-/

set_option autoImplicit false
set_option relaxedAutoImplicit false

namespace AirInquiry.Text

theorem splitChars_ne_nil (mark : Char) (chars : List Char) : splitChars mark chars ≠ [] := by
  induction chars with
  | nil => simp [splitChars]
  | cons c rest ih =>
    rw [splitChars]
    split
    · simp
    · split <;> simp

theorem splitChars_of_notMem {mark : Char} {chars : List Char} (h : mark ∉ chars) :
    splitChars mark chars = [chars] := by
  induction chars with
  | nil => rfl
  | cons c rest ih =>
    simp only [List.mem_cons, not_or] at h
    rw [splitChars, if_neg (Ne.symm h.1), ih h.2]

theorem splitChars_append (mark : Char) (first second : List Char) :
    splitChars mark (first ++ mark :: second) =
      splitChars mark first ++ splitChars mark second := by
  induction first with
  | nil => simp [splitChars]
  | cons c rest ih =>
    by_cases hc : c = mark
    · rw [List.cons_append, splitChars, if_pos hc, ih, splitChars, if_pos hc, List.cons_append]
    · rw [List.cons_append, splitChars, if_neg hc, ih, splitChars, if_neg hc]
      cases hpieces : splitChars mark rest with
      | nil => exact absurd hpieces (splitChars_ne_nil mark rest)
      | cons piece pieces => rfl

theorem splitChars_joinChars {mark : Char} {first : List Char} {rest : List (List Char)}
    (h : ∀ piece ∈ first :: rest, mark ∉ piece) :
    splitChars mark (joinChars [mark] (first :: rest)) = first :: rest := by
  induction rest generalizing first with
  | nil => exact splitChars_of_notMem (h first (by simp))
  | cons second rest ih =>
    have hjoin : joinChars [mark] (first :: second :: rest) =
        first ++ mark :: joinChars [mark] (second :: rest) := by simp [joinChars]
    rw [hjoin, splitChars_append, splitChars_of_notMem (h first (by simp)),
      ih fun piece hpiece ↦ h piece (List.mem_cons_of_mem first hpiece), List.singleton_append]

/-- Cutting at points undoes joining by points, unless a piece holds one itself. -/
theorem split_join {first : String} {rest : List String}
    (h : ∀ piece ∈ first :: rest, '.' ∉ piece.toList) :
    split '.' (join "." (first :: rest)) = first :: rest := by
  have hpieces : ∀ piece ∈ first.toList :: rest.map String.toList, '.' ∉ piece := by
    simpa using h
  have hpoint : ".".toList = ['.'] := by rfl
  rw [split, join, String.toList_ofList, hpoint, List.map_cons, splitChars_joinChars hpieces,
    ← List.map_cons, List.map_map]
  simp [Function.comp_def]

theorem joinChars_cons_cons (separator piece : List Char) {pieces : List (List Char)}
    (h : pieces ≠ []) :
    joinChars separator (piece :: pieces) = piece ++ separator ++ joinChars separator pieces := by
  cases pieces with
  | nil => exact absurd rfl h
  | cons next rest => rfl

theorem joinChars_splitChars (mark : Char) (chars : List Char) :
    joinChars [mark] (splitChars mark chars) = chars := by
  induction chars with
  | nil => rfl
  | cons c rest ih =>
    by_cases hc : c = mark
    · rw [splitChars, if_pos hc, joinChars_cons_cons _ _ (splitChars_ne_nil mark rest), ih, hc]
      rfl
    · rw [splitChars, if_neg hc]
      cases hpieces : splitChars mark rest with
      | nil => exact absurd hpieces (splitChars_ne_nil mark rest)
      | cons piece pieces =>
        rw [hpieces] at ih
        cases pieces with
        | nil => exact congrArg (c :: ·) ih
        | cons next others => exact congrArg (c :: ·) ih

/-- Joining by points undoes cutting at them. -/
theorem join_split (text : String) : join "." (split '.' text) = text := by
  have hpoint : ".".toList = ['.'] := by rfl
  have hpieces : (split '.' text).map String.toList = splitChars '.' text.toList := by
    simp [split, Function.comp_def]
  rw [join, hpieces, hpoint, joinChars_splitChars, String.ofList_toList]

end AirInquiry.Text
