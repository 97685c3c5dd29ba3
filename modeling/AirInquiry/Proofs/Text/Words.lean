import AirInquiry.Names.Index
import AirInquiry.Proofs.Text.Pieces
import AirInquiry.Proofs.Text.Ranges
import Mathlib.Data.List.Basic
import Mathlib.Data.List.TakeWhile

/-!
# The words of a text

A character that belongs to no word cuts a text into two with words of their own
(`Text.wordRuns_append`). So blanks at the ends of a text change none of its words
(`Text.words_trim`).

A word has a character and no blank (`Text.isWord_of_mem_words`), because no other character has the
blank as its lower case form. So words with blanks between them can be told apart again
(`Text.join_eq_iff`).
-/

set_option autoImplicit false
set_option relaxedAutoImplicit false

namespace AirInquiry.Text

/-! ### Runs of word characters -/

theorem isWordChar_of_isBlank {c : Char} (h : isBlank c = true) : isWordChar c = false := by
  have hunderscore : c ≠ '_' := by
    rintro rfl
    revert h
    decide
  simp [isWordChar, isAlphanumeric_of_isBlank h, hunderscore]

theorem wordRuns_append {c : Char} (hc : isWordChar c = false) (current front behind : List Char) :
    wordRuns current (front ++ c :: behind) = wordRuns current front ++ wordRuns [] behind := by
  induction front generalizing current with
  | nil =>
    simp only [List.nil_append, wordRuns, hc, Bool.false_eq_true, if_false]
    split
    · rfl
    · rfl
  | cons first rest ih =>
    rw [List.cons_append, wordRuns, wordRuns]
    split
    · exact ih _
    · split
      · exact ih _
      · rw [ih, List.cons_append]

theorem wordRuns_append_blanks (current front : List Char) {blanks : List Char}
    (h : ∀ c ∈ blanks, isBlank c = true) :
    wordRuns current (front ++ blanks) = wordRuns current front := by
  induction blanks generalizing current front with
  | nil => rw [List.append_nil]
  | cons c rest ih =>
    rw [List.forall_mem_cons] at h
    have hrest := ih [] [] h.2
    rw [List.nil_append] at hrest
    rw [wordRuns_append (isWordChar_of_isBlank h.1), hrest]
    exact List.append_nil _

theorem wordRuns_trimStart (text : List Char) :
    wordRuns [] (trimStart text) = wordRuns [] text := by
  induction text with
  | nil => rfl
  | cons c rest ih =>
    by_cases hc : isBlank c = true
    · rw [trimStart, List.dropWhile_cons_of_pos hc, ← trimStart, ih, wordRuns,
        if_neg (by simp [isWordChar_of_isBlank hc])]
      rfl
    · rw [trimStart, List.dropWhile_cons_of_neg hc]

/-- Blanks at the ends of a text are in none of its words. -/
theorem words_trim (text : String) : words (trim text) = words text := by
  have hparts := List.takeWhile_append_dropWhile (p := isBlank)
    (l := (trimStart text.toList).reverse)
  have hblank : ∀ c ∈ ((trimStart text.toList).reverse.takeWhile isBlank).reverse,
      isBlank c = true := fun c hc ↦ List.mem_takeWhile_imp (List.mem_reverse.1 hc)
  have htrim : trimStart text.toList = trimChars text.toList ++
      ((trimStart text.toList).reverse.takeWhile isBlank).reverse :=
    calc trimStart text.toList
        = (trimStart text.toList).reverse.reverse := (List.reverse_reverse _).symm
      _ = ((trimStart text.toList).reverse.takeWhile isBlank ++
          trimStart (trimStart text.toList).reverse).reverse := congrArg List.reverse hparts.symm
      _ = _ := List.reverse_append
  have hruns := wordRuns_append_blanks [] (trimChars text.toList) hblank
  rw [← htrim, wordRuns_trimStart] at hruns
  rw [words, words, trim, String.toList_ofList, hruns]

/-- A run has characters, and all of them belong to words. -/
theorem of_mem_wordRuns {current text run : List Char}
    (hcurrent : ∀ c ∈ current, isWordChar c = true) (h : run ∈ wordRuns current text) :
    run ≠ [] ∧ ∀ c ∈ run, isWordChar c = true := by
  have hown : current.isEmpty = false →
      current.reverse ≠ [] ∧ ∀ c ∈ current.reverse, isWordChar c = true := by
    intro hne
    rw [Bool.eq_false_iff, Ne, List.isEmpty_iff] at hne
    exact ⟨by simpa using hne, fun c hc ↦ hcurrent c (List.mem_reverse.1 hc)⟩
  induction text generalizing current with
  | nil =>
    rw [wordRuns] at h
    split at h
    · cases h
    · next hempty =>
      obtain rfl := List.mem_singleton.1 h
      exact hown (Bool.eq_false_iff.2 hempty)
  | cons c rest ih =>
    rw [wordRuns] at h
    have hnone : run ∈ wordRuns [] rest → run ≠ [] ∧ ∀ c ∈ run, isWordChar c = true :=
      fun hrest ↦ ih (List.forall_mem_nil _) hrest fun hne ↦ by cases hne
    split at h
    · next hc =>
      have hmore : ∀ other ∈ c :: current, isWordChar other = true :=
        List.forall_mem_cons.2 ⟨hc, hcurrent⟩
      exact ih hmore h fun _ ↦
        ⟨by simp, fun other hother ↦ hmore other (List.mem_reverse.1 hother)⟩
    · split at h
      · exact hnone h
      · next hempty =>
        rcases List.mem_cons.1 h with rfl | h
        · exact hown (Bool.eq_false_iff.2 hempty)
        · exact hnone h

/-! ### Lower case -/

/-- Assumes that all characters move to codes above that of the blank. -/
theorem eq_of_lowercaseCode {runs : List CaseRun} {code : Nat}
    (hruns : ∀ run ∈ runs, 32 < (run.first : Int) + run.distance)
    (h : lowercaseCode runs code = 32) : code = 32 := by
  induction runs with
  | nil => exact h
  | cons run rest ih =>
    rw [List.forall_mem_cons] at hruns
    rw [lowercaseCode] at h
    split at h
    · exact h
    · next hfirst =>
      split at h
      · have := hruns.1
        omega
      · exact ih hruns.2 h

theorem blank_lt_of_mem_lowercaseRuns :
    ∀ run ∈ lowercaseRuns, 32 < (run.first : Int) + run.distance := by
  have hall : (lowercaseRuns.all fun run ↦ decide (32 < (run.first : Int) + run.distance)) =
      true := by decide +kernel
  simpa using hall

/-- Only codes of characters are kept, and any other one becomes zero. -/
theorem eq_of_toNat_ofNat {code value : Nat} (h : (Char.ofNat code).toNat = value)
    (hvalue : value ≠ 0) : code = value := by
  by_cases hvalid : code.isValidChar
  · rw [Char.ofNat, dif_pos hvalid] at h
    exact h
  · rw [Char.ofNat, dif_neg hvalid] at h
    exact absurd h.symm hvalue

/-- Only the blank has the blank as its lower case form. -/
theorem blank_notMem_lowercaseChar {c : Char} (hc : c ≠ ' ') : ' ' ∉ lowercaseChar c := by
  rw [lowercaseChar]
  split
  · decide
  · intro hmem
    have hcode : (Char.ofNat (lowercaseCode lowercaseRuns c.toNat)).toNat = 32 := by
      rw [← List.mem_singleton.1 hmem]
      rfl
    have hlower := eq_of_toNat_ofNat hcode (by decide)
    exact hc (Char.toNat_inj.1 (eq_of_lowercaseCode blank_lt_of_mem_lowercaseRuns hlower))

theorem blank_notMem_lowercaseAfter (before : List Char) {text : List Char} (h : ' ' ∉ text) :
    ' ' ∉ lowercaseAfter before text := by
  induction text generalizing before with
  | nil => simp [lowercaseAfter]
  | cons c rest ih =>
    rw [List.mem_cons, not_or] at h
    rw [lowercaseAfter]
    split
    · rw [List.mem_cons, not_or]
      refine ⟨?_, ih _ h.2⟩
      split <;> decide
    · rw [List.mem_append, not_or]
      exact ⟨blank_notMem_lowercaseChar (Ne.symm h.1), ih _ h.2⟩

theorem lowercaseAfter_ne_nil (before : List Char) {text : List Char} (h : text ≠ []) :
    lowercaseAfter before text ≠ [] := by
  cases text with
  | nil => exact absurd rfl h
  | cons c rest =>
    rw [lowercaseAfter, lowercaseChar]
    split
    · simp
    · split <;> simp

/-! ### Words with blanks between them -/

/-- A text with a character and without a blank. -/
def IsWord (word : String) : Prop := word.toList ≠ [] ∧ ' ' ∉ word.toList

theorem isWord_of_mem_words {text : String} : ∀ word ∈ words text, IsWord word := by
  intro word hword
  obtain ⟨run, hrun, rfl⟩ := List.mem_map.1 hword
  obtain ⟨hne, hchars⟩ := of_mem_wordRuns (List.forall_mem_nil _) hrun
  have hblank : ' ' ∉ run := by
    intro hmem
    have hword := hchars ' ' hmem
    rw [isWordChar_of_isBlank (by decide)] at hword
    cases hword
  rw [IsWord, String.toList_ofList]
  exact ⟨lowercaseAfter_ne_nil [] hne, blank_notMem_lowercaseAfter [] hblank⟩

theorem splitChars_join {words : List String} (hwords : ∀ word ∈ words, IsWord word) :
    splitChars ' ' (join " " words).toList =
      if words = [] then [[]] else words.map String.toList := by
  have hseparator : " ".toList = [' '] := by rfl
  rw [join, String.toList_ofList, hseparator]
  cases words with
  | nil => rfl
  | cons first rest =>
    rw [if_neg (List.cons_ne_nil first rest), List.map_cons]
    refine splitChars_joinChars ?_
    rw [← List.map_cons, List.forall_mem_map]
    exact fun word hword ↦ (hwords word hword).2

/-- Words with blanks between them tell which words they are. -/
theorem join_eq_iff {first second : List String} (hfirst : ∀ word ∈ first, IsWord word)
    (hsecond : ∀ word ∈ second, IsWord word) :
    join " " first = join " " second ↔ first = second := by
  refine ⟨fun h ↦ ?_, congrArg _⟩
  have hnil : ∀ {words : List String}, (∀ word ∈ words, IsWord word) →
      [[]] = words.map String.toList → words = [] := by
    intro words hwords heq
    cases words with
    | nil => rfl
    | cons word rest => exact absurd (List.cons.inj heq).1.symm (hwords word (.head _)).1
  have hpieces := splitChars_join hfirst
  rw [h, splitChars_join hsecond] at hpieces
  split at hpieces
  · next hempty =>
    split at hpieces
    · next hempty' => rw [hempty, hempty']
    · rw [hempty, hnil hfirst hpieces]
  · split at hpieces
    · next hempty => rw [hempty, hnil hsecond hpieces.symm]
    · exact List.map_injective_iff.2 (fun _ _ ↦ String.toList_injective) hpieces.symm

end AirInquiry.Text
