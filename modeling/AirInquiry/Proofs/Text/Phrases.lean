import AirInquiry.Inference.Phrase
import Mathlib.Data.List.Infix

/-!
# Phrases that stand by themselves

The search for a phrase goes on behind an occurrence that it passes over, so an occurrence that
overlaps this one is not looked at. What it finds stands by itself (`Text.standsApart_of_mentions`),
but for some phrases it misses something: `a a` stands by itself in `ba a a`, behind an occurrence
that does not.

A phrase is borderless if no shorter part of it is both its start and its end. Its occurrences do
not overlap (`Text.IsBorderless.length_le`), so it is found wherever it stands by itself. All phrases
for time are borderless (`Text.mentions_iff_standsApart`).
-/

set_option autoImplicit false
set_option relaxedAutoImplicit false

namespace AirInquiry.Text

/-- The phrase is somewhere in the text with no letter and no digit next to it. -/
def StandsApart (text phrase : List Char) : Prop :=
  ∃ front behind, text = front ++ phrase ++ behind ∧
    (∀ c ∈ front.getLast?, isAlphanumeric c = false) ∧
    ∀ c ∈ behind.head?, isAlphanumeric c = false

/-- Nothing but the whole phrase and the empty text is both a start and an end of the phrase. -/
def IsBorderless (phrase : List Char) : Prop :=
  ∀ border, border <+: phrase → border <:+ phrase → border = [] ∨ border = phrase

instance : DecidablePred IsBorderless := fun phrase ↦
  decidable_of_iff (∀ border ∈ phrase.inits, border <:+ phrase → border = [] ∨ border = phrase)
    (forall_congr' fun border ↦ by rw [List.mem_inits])

variable {text phrase front behind : List Char} {before : Option Char} {skipped : Nat}

theorem leavesApart_iff {neighbour : Option Char} :
    leavesApart neighbour = true ↔ ∀ c ∈ neighbour, isAlphanumeric c = false := by
  cases neighbour <;> simp [leavesApart]

/-- Two occurrences of a borderless phrase do not overlap. -/
theorem IsBorderless.length_le (h : IsBorderless phrase) (hfirst : phrase <+: text)
    (hlater : text = front ++ phrase ++ behind) (hfront : front ≠ []) :
    phrase.length ≤ front.length := by
  rw [List.append_assoc] at hlater
  by_contra hlength
  have hshort : front.length ≤ phrase.length := Nat.le_of_lt (Nat.lt_of_not_le hlength)
  -- The overlap is the end of the first occurrence and the start of the later one.
  obtain ⟨overlap, hoverlap⟩ : front <+: phrase :=
    List.prefix_of_prefix_length_le ⟨_, hlater.symm⟩ hfirst hshort
  have hend : overlap <:+ phrase := ⟨front, hoverlap⟩
  have hstart : overlap <+: phrase := by
    rw [← hoverlap, hlater, List.prefix_append_right_inj] at hfirst
    exact List.prefix_of_prefix_length_le hfirst (List.prefix_append phrase behind)
      hend.length_le
  rcases h overlap hstart hend with rfl | rfl
  · rw [List.append_nil] at hoverlap
    exact hlength (Nat.le_of_eq (congrArg List.length hoverlap.symm))
  · exact hfront (List.append_left_eq_self.1 hoverlap)

/-- The last character in front of what is left of a text. -/
theorem getLast?_cons_or (c : Char) (front : List Char) (before : Option Char) :
    (c :: front).getLast?.or before = front.getLast?.or (some c) := by
  rw [List.getLast?_cons, Option.some_or]
  cases front.getLast? <;> rfl

/-- What the search finds stands by itself behind what is skipped. -/
theorem exists_place_of_mentionsFrom (h : mentionsFrom phrase skipped before text = true) :
    ∃ front behind, text = front ++ phrase ++ behind ∧ skipped ≤ front.length ∧
      leavesApart (front.getLast?.or before) = true ∧ leavesApart behind.head? = true := by
  -- A place behind the first character of a text is a place in the text.
  have hlater : ∀ {c : Char} {rest front behind : List Char} {before : Option Char},
      rest = front ++ phrase ++ behind → leavesApart (front.getLast?.or (some c)) = true →
        c :: rest = (c :: front) ++ phrase ++ behind ∧
          leavesApart ((c :: front).getLast?.or before) = true := by
    rintro c _ front behind before rfl hfront
    exact ⟨rfl, by rwa [getLast?_cons_or]⟩
  fun_induction mentionsFrom phrase skipped before text with
  | case1 before =>
    obtain ⟨hempty, hbefore⟩ := Bool.and_eq_true_iff.1 h
    rw [List.isEmpty_iff] at hempty
    exact ⟨[], [], by rw [hempty]; rfl, Nat.zero_le _, hbefore, rfl⟩
  | case2 => cases h
  | case3 skipped before c rest ih =>
    obtain ⟨front, behind, hrest, hlength, hfront, hbehind⟩ := ih h
    obtain ⟨htext, hfront⟩ := hlater hrest hfront
    exact ⟨c :: front, behind, htext, Nat.succ_le_succ hlength, hfront, hbehind⟩
  | case4 before c rest hprefix ih =>
    rcases Bool.or_eq_true_iff.1 h with hhere | hthere
    · obtain ⟨hbefore, hbehind⟩ := Bool.and_eq_true_iff.1 hhere
      obtain ⟨behind, htext⟩ := List.isPrefixOf_iff_prefix.1 hprefix
      rw [← htext, List.drop_left] at hbehind
      exact ⟨[], behind, htext.symm, Nat.zero_le _, hbefore, hbehind⟩
    · obtain ⟨front, behind, hrest, -, hfront, hbehind⟩ := ih hthere
      obtain ⟨htext, hfront⟩ := hlater hrest hfront
      exact ⟨c :: front, behind, htext, Nat.zero_le _, hfront, hbehind⟩
  | case5 before c rest hprefix ih =>
    obtain ⟨front, behind, hrest, -, hfront, hbehind⟩ := ih h
    obtain ⟨htext, hfront⟩ := hlater hrest hfront
    exact ⟨c :: front, behind, htext, Nat.zero_le _, hfront, hbehind⟩

/-- A borderless phrase is found wherever it stands by itself behind what is skipped: an occurrence
that is passed over ends in front of it. -/
theorem mentionsFrom_of_place (h : IsBorderless phrase) (htext : text = front ++ phrase ++ behind)
    (hlength : skipped ≤ front.length) (hfront : leavesApart (front.getLast?.or before) = true)
    (hbehind : leavesApart behind.head? = true) :
    mentionsFrom phrase skipped before text = true := by
  fun_induction mentionsFrom phrase skipped before text generalizing front with
  | case1 before =>
    obtain ⟨hempty, rfl⟩ := List.append_eq_nil_iff.1 htext.symm
    obtain ⟨rfl, rfl⟩ := List.append_eq_nil_iff.1 hempty
    exact hfront
  | case2 =>
    obtain ⟨hempty, -⟩ := List.append_eq_nil_iff.1 htext.symm
    obtain ⟨rfl, -⟩ := List.append_eq_nil_iff.1 hempty
    exact absurd hlength (Nat.not_succ_le_zero _)
  | case3 skipped before c rest ih =>
    obtain ⟨first, front, rfl⟩ := List.exists_cons_of_length_pos (Nat.zero_lt_of_lt hlength)
    cases htext
    rw [getLast?_cons_or] at hfront
    exact ih rfl (Nat.le_of_succ_le_succ hlength) hfront
  | case4 before c rest hprefix ih =>
    rw [Bool.or_eq_true]
    cases front with
    | nil =>
      left
      rw [htext, List.nil_append, List.drop_left, hbehind, Bool.and_true]
      exact hfront
    | cons first front =>
      right
      have hapart := h.length_le (List.isPrefixOf_iff_prefix.1 hprefix) htext
        (List.cons_ne_nil first front)
      cases htext
      rw [getLast?_cons_or] at hfront
      refine ih rfl ?_ hfront
      rw [List.length_cons] at hapart
      omega
  | case5 before c rest hprefix ih =>
    cases front with
    | nil =>
      rw [List.nil_append] at htext
      exact absurd (List.isPrefixOf_iff_prefix.2 ⟨behind, htext.symm⟩) hprefix
    | cons first front =>
      cases htext
      rw [getLast?_cons_or] at hfront
      exact ih rfl (Nat.zero_le _) hfront

theorem standsApart_of_mentions (h : mentions text phrase = true) : StandsApart text phrase := by
  obtain ⟨front, behind, htext, -, hfront, hbehind⟩ := exists_place_of_mentionsFrom h
  rw [Option.or_none] at hfront
  exact ⟨front, behind, htext, leavesApart_iff.1 hfront, leavesApart_iff.1 hbehind⟩

/-- This phrase has a border. The search passes over its first occurrence and misses the second
one, which overlaps. -/
example : ¬ IsBorderless "a a".toList ∧ mentions "ba a a".toList "a a".toList = false := by
  decide +kernel

/-- A borderless phrase is mentioned exactly if it stands by itself somewhere in the text, whatever
occurrences overlap there. All phrases for time are borderless. -/
theorem mentions_iff_standsApart :
    (∀ phrase, IsBorderless phrase →
      ∀ text, mentions text phrase = true ↔ StandsApart text phrase) ∧
    ∀ phrase ∈ Inference.latestPhrases ++ Inference.oldestPhrases ++ Inference.todayPhrases,
      IsBorderless phrase.toList := by
  refine ⟨fun phrase hphrase text ↦ ⟨standsApart_of_mentions, ?_⟩, by decide +kernel⟩
  rintro ⟨front, behind, htext, hfront, hbehind⟩
  refine mentionsFrom_of_place hphrase htext (Nat.zero_le _) ?_ (leavesApart_iff.2 hbehind)
  rw [Option.or_none]
  exact leavesApart_iff.2 hfront

/-- The first two occurrences have letters next to them. -/
theorem mentions_iff_standsApart_now :
    IsBorderless "now".toList ∧ StandsApart "nownow now!".toList "now".toList :=
  ⟨by decide +kernel,
    (mentions_iff_standsApart.1 _ (by decide +kernel) _).1 (by decide +kernel)⟩

end AirInquiry.Text
