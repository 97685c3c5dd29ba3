import AirInquiry.Inference.Limit
import AirInquiry.Proofs.Text.Ranges
import Mathlib.Data.List.TakeWhile
import Mathlib.Tactic.Common

/-!
# Which number of a question is its limit

A number stands by itself between a blank and a blank or a mark, or at an end of the question
(`NumberPlace.StandsAlone`). Not all numbers of this kind are read: the blank behind a number that
is read belongs to it, so a number directly behind that blank is passed over, and the one behind
this is read again (`NumberPlace.IsTaken`, `NumberPlace.IsRead`). The numbers of a text are the
numbers at the places that are read, in their order (`exists_places_numbers`).

The limit of a question is the positive number at the leftmost of these places
(`isFirst_statedLimit`). It is not always the leftmost positive number that stands by itself: in
`0 5` the only blank belongs to the zero, and there is no limit (`not_isFirst_zero_five`).
-/

set_option autoImplicit false
set_option relaxedAutoImplicit false

namespace AirInquiry.Inference

/-- Some characters of a text, with what is in front of them and what is behind. -/
structure NumberPlace where
  front : List Char
  digits : List Char
  behind : List Char

namespace NumberPlace

/-- The text that a place is in. -/
def text (place : NumberPlace) : List Char := place.front ++ place.digits ++ place.behind

/-- The characters are one to four decimal digits of any script. A blank or the start of the text is
in front of them, and a blank, a mark or the end of the text behind. -/
structure StandsAlone (place : NumberPlace) : Prop where
  isDigits : ∀ c ∈ place.digits, Text.isDecimalDigit c = true
  length_pos : 0 < place.digits.length
  length_le : place.digits.length ≤ 4
  front : ∀ c ∈ place.front.getLast?, Text.isBlank c = true
  behind : ∀ c ∈ place.behind.head?,
    Text.isBlank c = true ∨ c ∈ [',', '!', '?', ';', ':']

/-- The last character of a text belongs to a number: it stands directly behind a number by itself,
and no other number has the blank in front of that one. -/
def IsTaken (front : List Char) : Prop :=
  ∃ earlier digits : List Char, ∃ last : Char, ∃ _ : front = earlier ++ digits ++ [last],
    StandsAlone ⟨earlier, digits, [last]⟩ ∧ ¬ IsTaken earlier
termination_by front.length
decreasing_by
  subst front
  simp only [List.length_append, List.length_singleton]
  omega

/-- A number that stands by itself, with a blank in front that belongs to no other number. -/
structure IsRead (place : NumberPlace) : Prop extends place.StandsAlone where
  free : ¬ IsTaken place.front

/-- A number that stands by itself, of ASCII digits and positive. -/
structure IsCount (place : NumberPlace) : Prop extends place.StandsAlone where
  isAscii : ∀ c ∈ place.digits, c.isDigit = true
  positive : 0 < Nat.ofDigitChars 10 place.digits 0

end NumberPlace

/-- A limit is the number at the leftmost place of a text that counts, and it is missing exactly if
no place counts. -/
def IsFirst (counts : NumberPlace → Prop) (text : List Char) (limit : Option Nat) : Prop :=
  (∀ value, limit = some value ↔ ∃ place : NumberPlace, place.text = text ∧ counts place ∧
    Nat.ofDigitChars 10 place.digits 0 = value ∧ ∀ other : NumberPlace, other.text = text →
      counts other → place.front.length ≤ other.front.length) ∧
  (limit = none ↔ ∀ place : NumberPlace, place.text = text → ¬ counts place)

/-! ### Numbers that stand by themselves -/

theorem endsNumber_iff {c : Char} :
    endsNumber c = true ↔ Text.isBlank c = true ∨ c ∈ [',', '!', '?', ';', ':'] := by
  rw [endsNumber, Bool.or_eq_true, List.contains_iff_mem]

theorem isDecimalDigit_of_endsNumber {c : Char} (h : endsNumber c = true) :
    Text.isDecimalDigit c = false := by
  rcases endsNumber_iff.1 h with hblank | hmark
  · exact Text.isDecimalDigit_of_isBlank hblank
  · have hmarks : ([',', '!', '?', ';', ':'].all fun c ↦ !Text.isDecimalDigit c) = true := by
      decide +kernel
    simpa using List.all_eq_true.1 hmarks c hmark

namespace NumberPlace

variable {place other : NumberPlace}

/-- Digits by themselves are all digits at their place. -/
theorem StandsAlone.takeWhile_eq (h : place.StandsAlone) :
    (place.digits ++ place.behind).takeWhile Text.isDecimalDigit = place.digits ∧
      (place.digits ++ place.behind).dropWhile Text.isDecimalDigit = place.behind := by
  rw [List.takeWhile_append_of_pos h.isDigits, List.dropWhile_append_of_pos h.isDigits]
  cases hbehind : place.behind with
  | nil => simp
  | cons c rest =>
    have hc := isDecimalDigit_of_endsNumber (endsNumber_iff.2 (h.behind c (by rw [hbehind]; rfl)))
    simp [hc]

end NumberPlace

/-- A number is found at the start of a text exactly if one to four digits stand there, with an end
of a number behind them. -/
theorem numberAt_eq_some_iff {text digits rest : List Char} :
    numberAt text = some (digits, rest) ↔
      ∃ behind, text = digits ++ behind ∧ rest = behind.tail ∧
        NumberPlace.StandsAlone ⟨[], digits, behind⟩ := by
  constructor
  · intro h
    have hparts := List.takeWhile_append_dropWhile (p := Text.isDecimalDigit) (l := text)
    have hdigits : ∀ c ∈ text.takeWhile Text.isDecimalDigit, Text.isDecimalDigit c = true :=
      fun c hc ↦ List.mem_takeWhile_imp hc
    simp only [numberAt] at h
    split at h
    · cases h
    · next hlength =>
      rw [Bool.or_eq_true, decide_eq_true_eq, not_or, Nat.not_lt, List.isEmpty_iff] at hlength
      have hpositive := List.length_pos_iff.2 hlength.1
      split at h
      · next hbehind =>
        cases h
        refine ⟨[], ?_, rfl, hdigits, hpositive, hlength.2, by simp, by simp⟩
        rw [hbehind] at hparts
        exact hparts.symm
      · next c behind hbehind =>
        split at h
        · next hends =>
          cases h
          rw [hbehind] at hparts
          refine ⟨c :: rest, hparts.symm, rfl, hdigits, hpositive, hlength.2, by simp, ?_⟩
          intro first hfirst
          cases hfirst
          exact endsNumber_iff.1 hends
        · cases h
  · rintro ⟨behind, rfl, rfl, halone⟩
    obtain ⟨htake, hdrop⟩ := halone.takeWhile_eq
    have hpositive : digits.isEmpty = false := by
      rw [Bool.eq_false_iff, Ne, List.isEmpty_iff]
      exact List.length_pos_iff.1 halone.length_pos
    have hlimit : ¬ digitLimit < digits.length := Nat.not_lt.2 halone.length_le
    simp only at htake hdrop
    simp only [numberAt, htake, hdrop, hpositive, hlimit, decide_false, Bool.or_false,
      Bool.false_eq_true, if_false]
    cases behind with
    | nil => rfl
    | cons c rest => exact if_pos (endsNumber_iff.2 (halone.behind c rfl))

/-! ### Numbers that are read -/

namespace NumberPlace

variable {place other : NumberPlace}

theorem isTaken_iff {front : List Char} :
    IsTaken front ↔ ∃ earlier digits last, front = earlier ++ digits ++ [last] ∧
      StandsAlone ⟨earlier, digits, [last]⟩ ∧ ¬ IsTaken earlier := by
  rw [IsTaken]
  simp only [exists_prop]

/-- The character behind a number that is read belongs to it. -/
theorem IsRead.isTaken (h : place.IsRead) {last : Char} {rest : List Char}
    (hbehind : place.behind = last :: rest) : IsTaken (place.front ++ place.digits ++ [last]) := by
  refine isTaken_iff.2 ⟨place.front, place.digits, last, rfl, ?_, h.free⟩
  refine ⟨h.isDigits, h.length_pos, h.length_le, h.front, ?_⟩
  intro c hc
  exact h.behind c (by rw [hbehind]; exact hc)

theorem StandsAlone.eq_of_length_front (h : place.StandsAlone) (hother : other.StandsAlone)
    (htext : place.text = other.text) (hlength : place.front.length = other.front.length) :
    place = other := by
  obtain ⟨hplaceDigits, hplaceBehind⟩ := h.takeWhile_eq
  obtain ⟨hotherDigits, hotherBehind⟩ := hother.takeWhile_eq
  rw [text, text, List.append_assoc, List.append_assoc] at htext
  obtain ⟨hfront, hrest⟩ := List.append_inj htext hlength
  rw [hrest] at hplaceDigits hplaceBehind
  obtain ⟨front, digits, behind⟩ := place
  obtain ⟨otherFront, otherDigits, otherBehind⟩ := other
  rw [mk.injEq]
  exact ⟨hfront, hplaceDigits.symm.trans hotherDigits, hplaceBehind.symm.trans hotherBehind⟩

/-- Of two numbers that are read, the later one starts behind the character that follows the earlier
one. -/
theorem IsRead.length_lt (h : place.IsRead) (hother : other.IsRead)
    (htext : place.text = other.text) (hlt : place.front.length < other.front.length) :
    place.front.length + place.digits.length + 1 < other.front.length := by
  have hfront : place.front <+: place.text := by simp [text]
  have hotherFront : other.front <+: place.text := by rw [htext]; simp [text]
  obtain ⟨between, hbetween⟩ :=
    List.prefix_of_prefix_length_le hfront hotherFront (Nat.le_of_lt hlt)
  have hprefixes : between <+: place.digits ++ place.behind := by
    rw [← List.prefix_append_right_inj place.front, hbetween, ← List.append_assoc]
    exact hotherFront
  have hlength := congrArg List.length hbetween
  rw [List.length_append] at hlength
  by_contra hnear
  have hne : between ≠ [] := List.length_pos_iff.1 (by omega)
  have hlast : other.front.getLast? = some (between.getLast hne) := by
    rw [← hbetween, List.getLast?_append, List.getLast?_eq_some_getLast hne]
    rfl
  rcases Nat.lt_or_ge place.digits.length between.length with hlonger | hshorter
  · -- The other number starts right behind the character that belongs to this one.
    obtain ⟨tail, htail⟩ := List.prefix_of_prefix_length_le (List.prefix_append _ _) hprefixes
      (Nat.le_of_lt hlonger)
    have htailLength := congrArg List.length htail
    rw [List.length_append] at htailLength
    obtain ⟨last, rfl⟩ := List.length_eq_one_iff.1 (show tail.length = 1 by omega)
    rw [← htail, List.prefix_append_right_inj] at hprefixes
    obtain ⟨rest, hrest⟩ := hprefixes
    refine hother.free ?_
    rw [← hbetween, ← htail, ← List.append_assoc]
    exact h.isTaken hrest.symm
  · -- The other number would start behind one of the digits.
    have hdigits := List.prefix_of_prefix_length_le hprefixes (List.prefix_append _ _) hshorter
    have hdigit := h.isDigits _ (hdigits.subset (List.getLast_mem hne))
    have hblank := Text.isDecimalDigit_of_isBlank (hother.front _ hlast)
    rw [hdigit] at hblank
    cases hblank

/-- The text up to a number, with the character behind the number. -/
def passed (place : NumberPlace) : List Char := place.front ++ place.digits ++ place.behind.take 1

theorem passed_append_tail (place : NumberPlace) :
    place.passed ++ place.behind.tail = place.text := by
  rw [passed, text, List.append_assoc, ← List.drop_one, List.take_append_drop]

/-- No number that is read starts in front of the rest of a text and reaches up to it. -/
def NoneReaches (front rest : List Char) : Prop :=
  ∀ place : NumberPlace, place.text = front ++ rest → place.IsRead →
    place.front.length ≤ front.length →
      place.front.length + place.digits.length < front.length ∨ rest = []

theorem IsRead.noneReaches (h : place.IsRead) : NoneReaches place.passed place.behind.tail := by
  intro other htext hother hle
  rw [passed_append_tail] at htext
  have hpassed : place.passed.length =
      place.front.length + place.digits.length + (place.behind.take 1).length := by
    simp only [passed, List.length_append]
  have hone := List.length_take_le 1 place.behind
  rcases Nat.lt_trichotomy other.front.length place.front.length with hbefore | hsame | hafter
  · have := hother.length_lt h htext hbefore
    exact .inl (by omega)
  · obtain rfl := hother.toStandsAlone.eq_of_length_front h.toStandsAlone htext hsame
    cases hbehind : other.behind with
    | nil => exact .inr rfl
    | cons c rest =>
      rw [hbehind] at hpassed
      simp only [List.take_succ_cons, List.take_zero, List.length_singleton] at hpassed
      exact .inl (by omega)
  · have := h.length_lt hother htext.symm hafter
    omega

/-- Where no number is found, none reaches up to the next character. -/
theorem NoneReaches.skip {front rest : List Char} {c : Char} (h : NoneReaches front (c :: rest))
    (hnone : ∀ place : NumberPlace, place.text = front ++ c :: rest → place.StandsAlone →
      place.front.length ≠ front.length + 1) : NoneReaches (front ++ [c]) rest := by
  intro place htext hread hle
  rw [List.append_assoc, List.singleton_append] at htext
  rw [List.length_append, List.length_singleton] at hle ⊢
  have hne := hnone place htext hread.toStandsAlone
  rcases h place htext hread (by omega) with hbefore | hnil
  · exact .inl (by omega)
  · cases hnil

/-- Where no number reaches up to the rest of a text, the next character belongs to none. -/
theorem NoneReaches.not_isTaken {front rest : List Char} {c : Char}
    (h : NoneReaches front (c :: rest)) : ¬ IsTaken (front ++ [c]) := by
  intro htaken
  obtain ⟨earlier, digits, last, hparts, halone, hfree⟩ := isTaken_iff.1 htaken
  obtain ⟨rfl, hlast⟩ := List.append_inj' hparts rfl
  cases hlast
  have hread : IsRead ⟨earlier, digits, c :: rest⟩ :=
    ⟨⟨halone.isDigits, halone.length_pos, halone.length_le, halone.front, halone.behind⟩, hfree⟩
  rcases h _ rfl hread (by simp) with hbefore | hnil
  · simp at hbefore
  · cases hnil

end NumberPlace

open NumberPlace (NoneReaches)

/-- Places are those of a text that are read from some character on, in their order. -/
structure ListsRead (text : List Char) (start : Nat) (places : List NumberPlace) : Prop where
  inOrder : places.Pairwise fun earlier later ↦ earlier.front.length < later.front.length
  mem_iff : ∀ place, place ∈ places ↔ place.text = text ∧ place.IsRead ∧ start ≤ place.front.length

variable {text : List Char} {start : Nat} {places : List NumberPlace}

/-- A number that is read comes first, and the next ones stand behind what belongs to it. -/
theorem ListsRead.cons {place : NumberPlace} (htext : place.text = text) (hread : place.IsRead)
    (hplaces : ListsRead text (place.passed.length + 1) places) :
    ListsRead text place.front.length (place :: places) := by
  have hpassed : place.passed.length =
      place.front.length + place.digits.length + (place.behind.take 1).length := by
    simp only [NumberPlace.passed, List.length_append]
  have hone := List.length_take_le 1 place.behind
  constructor
  · refine List.pairwise_cons.2 ⟨fun other hother ↦ ?_, hplaces.inOrder⟩
    have := ((hplaces.mem_iff other).1 hother).2.2
    omega
  · intro other
    rw [List.mem_cons, hplaces.mem_iff]
    constructor
    · rintro (rfl | ⟨hother, hotherRead, hle⟩)
      · exact ⟨htext, hread, Nat.le_refl _⟩
      · exact ⟨hother, hotherRead, by omega⟩
    · rintro ⟨hother, hotherRead, hle⟩
      rcases Nat.eq_or_lt_of_le hle with hsame | hlater
      · exact .inl (hotherRead.toStandsAlone.eq_of_length_front hread.toStandsAlone
          (hother.trans htext.symm) hsame.symm)
      · have := hread.length_lt hotherRead (htext.trans hother.symm) hlater
        exact .inr ⟨hother, hotherRead, by omega⟩

/-- Assumes that no number stands by itself where the listing is extended to. -/
theorem ListsRead.skip (h : ListsRead text (start + 1) places)
    (hnone : ∀ place : NumberPlace, place.text = text → place.StandsAlone →
      place.front.length ≠ start) : ListsRead text start places := by
  refine ⟨h.inOrder, fun place ↦ ?_⟩
  rw [h.mem_iff]
  constructor
  · rintro ⟨htext, hread, hle⟩
    exact ⟨htext, hread, by omega⟩
  · rintro ⟨htext, hread, hle⟩
    have := hnone place htext hread.toStandsAlone
    exact ⟨htext, hread, by omega⟩

/-! ### The numbers of a text -/

theorem parts_of_length_front {place : NumberPlace} {front rest : List Char}
    (htext : place.text = front ++ rest) (hlength : place.front.length = front.length) :
    place.front = front ∧ place.digits ++ place.behind = rest := by
  rw [NumberPlace.text, List.append_assoc] at htext
  exact List.append_inj htext hlength

/-- Where no number is found, none stands by itself. -/
theorem length_front_ne_of_numberAt (front : List Char) {rest : List Char}
    (h : numberAt rest = none) (place : NumberPlace) (htext : place.text = front ++ rest)
    (halone : place.StandsAlone) :
    place.front.length ≠ front.length := by
  intro hlength
  obtain ⟨-, hrest⟩ := parts_of_length_front htext hlength
  have hfound : numberAt rest = some (place.digits, place.behind.tail) :=
    numberAt_eq_some_iff.2 ⟨place.behind, hrest.symm, rfl, halone.isDigits, halone.length_pos,
      halone.length_le, by simp, halone.behind⟩
  rw [h] at hfound
  cases hfound

/-- A character behind which no number stands by itself adds no place. -/
theorem exists_places_skip {front rest : List Char} {c : Char} {found : List (List Char)}
    (hreaches : NoneReaches front (c :: rest))
    (hnone : ∀ place : NumberPlace, place.text = front ++ c :: rest → place.StandsAlone →
      place.front.length ≠ front.length + 1)
    (hrest : NoneReaches (front ++ [c]) rest →
      ∃ places, places.map NumberPlace.digits = found ∧
        ListsRead (front ++ [c] ++ rest) ((front ++ [c]).length + 1) places) :
    ∃ places, places.map NumberPlace.digits = found ∧
      ListsRead (front ++ c :: rest) (front.length + 1) places := by
  obtain ⟨places, hplaces, hlists⟩ := hrest (hreaches.skip hnone)
  rw [List.append_assoc, List.singleton_append, List.length_append,
    List.length_singleton] at hlists
  exact ⟨places, hplaces, hlists.skip hnone⟩

/-- Behind a text, the numbers are found at the places that are read. By induction along the search.
-/
theorem exists_places_laterNumbers {rest : List Char} :
    ∀ {front : List Char}, NoneReaches front rest →
      ∃ places, places.map NumberPlace.digits = laterNumbers rest ∧
        ListsRead (front ++ rest) (front.length + 1) places := by
  fun_induction laterNumbers rest with
  | case1 =>
    intro front _
    refine ⟨[], rfl, List.Pairwise.nil, fun place ↦ ?_⟩
    simp only [List.not_mem_nil, false_iff]
    rintro ⟨htext, -, hle⟩
    have hlength := congrArg List.length htext
    simp only [NumberPlace.text, List.length_append, List.length_nil] at hlength
    omega
  | case2 c rest hblank digits behind hnumber ih =>
    intro front hreaches
    obtain ⟨tail, rfl, rfl, halone⟩ := numberAt_eq_some_iff.1 hnumber
    have hread : NumberPlace.IsRead ⟨front ++ [c], digits, tail⟩ := by
      refine ⟨⟨halone.isDigits, halone.length_pos, halone.length_le, ?_, halone.behind⟩,
        hreaches.not_isTaken⟩
      intro last hlast
      rw [List.getLast?_concat] at hlast
      cases hlast
      exact hblank
    have htext : NumberPlace.text ⟨front ++ [c], digits, tail⟩ =
        front ++ c :: (digits ++ tail) := by simp [NumberPlace.text]
    obtain ⟨places, hplaces, hlists⟩ := ih hread.noneReaches
    rw [NumberPlace.passed_append_tail, htext] at hlists
    refine ⟨⟨front ++ [c], digits, tail⟩ :: places, by rw [List.map_cons, hplaces], ?_⟩
    simpa using hlists.cons htext hread
  | case3 c rest _ hnumber ih =>
    intro front hreaches
    have hnone := length_front_ne_of_numberAt (front ++ [c]) hnumber
    simp only [List.append_assoc, List.singleton_append, List.length_append,
      List.length_singleton] at hnone
    exact exists_places_skip hreaches hnone ih
  | case4 c rest hblank ih =>
    intro front hreaches
    have hnone : ∀ place : NumberPlace, place.text = front ++ c :: rest → place.StandsAlone →
        place.front.length ≠ front.length + 1 := by
      intro place htext halone hlength
      rw [List.append_cons] at htext
      obtain ⟨hfront, -⟩ := parts_of_length_front htext (by simpa using hlength)
      exact hblank (halone.front c (by rw [hfront, List.getLast?_concat]; rfl))
    exact exists_places_skip hreaches hnone ih

theorem not_isTaken_nil : ¬ NumberPlace.IsTaken [] := by
  intro htaken
  obtain ⟨earlier, digits, last, hparts, -⟩ := NumberPlace.isTaken_iff.1 htaken
  simp at hparts

/-- The numbers of a text are found at all places that are read, in their order. -/
theorem exists_places_numbers (text : List Char) :
    ∃ places, places.map NumberPlace.digits = numbers text ∧ ListsRead text 0 places := by
  cases hnumber : numberAt text with
  | none =>
    have hnone := length_front_ne_of_numberAt [] hnumber
    have hreaches : NoneReaches [] text := by
      intro place htext hread hle
      exact absurd (Nat.le_zero.1 hle) (hnone place htext hread.toStandsAlone)
    obtain ⟨places, hplaces, hlists⟩ := exists_places_laterNumbers hreaches
    exact ⟨places, by rw [hplaces, numbers, hnumber], hlists.skip hnone⟩
  | some found =>
    obtain ⟨digits, behind⟩ := found
    obtain ⟨tail, rfl, rfl, halone⟩ := numberAt_eq_some_iff.1 hnumber
    have hread : NumberPlace.IsRead ⟨[], digits, tail⟩ := ⟨halone, not_isTaken_nil⟩
    obtain ⟨places, hplaces, hlists⟩ := exists_places_laterNumbers hread.noneReaches
    rw [NumberPlace.passed_append_tail] at hlists
    refine ⟨⟨[], digits, tail⟩ :: places, ?_, hlists.cons rfl hread⟩
    rw [List.map_cons, hplaces, numbers, hnumber]

/-! ### The limit -/

theorem valueOf?_eq (digits : List Char) :
    valueOf? digits =
      if digits.all Char.isDigit then some (Nat.ofDigitChars 10 digits 0) else none := by
  have hfold : (fun (value : Nat) (c : Char) ↦ value * 10 + (c.toNat - '0'.toNat)) =
      fun value c ↦ 10 * value + (c.toNat - '0'.toNat) := by
    funext value c
    rw [Nat.mul_comm]
  rw [valueOf?, hfold]
  rfl

/-- The number at a place, if it is of ASCII digits and positive. -/
def countAt? (place : NumberPlace) : Option Nat :=
  (valueOf? place.digits).filter fun value ↦ 0 < value

theorem countAt?_eq_some_iff {place : NumberPlace} (h : place.StandsAlone) {value : Nat} :
    countAt? place = some value ↔
      place.IsCount ∧ Nat.ofDigitChars 10 place.digits 0 = value := by
  rw [countAt?, valueOf?_eq, Option.filter_eq_some_iff, decide_eq_true_eq]
  constructor
  · rintro ⟨hvalue, hpositive⟩
    split at hvalue
    · next hascii =>
      cases hvalue
      exact ⟨⟨h, List.all_eq_true.1 hascii, hpositive⟩, rfl⟩
    · cases hvalue
  · rintro ⟨hcount, rfl⟩
    exact ⟨if_pos (List.all_eq_true.2 hcount.isAscii), hcount.positive⟩

theorem statedLimit_eq_findSome? {question : String} {places : List NumberPlace}
    (h : places.map NumberPlace.digits = numbers question.toList) :
    statedLimit question = places.findSome? countAt? := by
  rw [statedLimit, ← h]
  clear h
  induction places with
  | nil => rfl
  | cons place rest ih =>
    rw [List.map_cons, List.findSome?_cons, countAt?]
    cases hvalue : valueOf? place.digits with
    | none =>
      rw [List.filterMap_cons_none hvalue, ih]
      rfl
    | some value =>
      rw [List.filterMap_cons_some hvalue, List.find?_cons, Option.filter_some]
      cases decide (0 < value) with
      | true => rfl
      | false => exact ih

namespace ListsRead

theorem countAt?_of_mem (h : ListsRead text 0 places) {place : NumberPlace}
    (hplace : place ∈ places) {value : Nat} (hvalue : countAt? place = some value) :
    place.text = text ∧ (place.IsCount ∧ ¬ NumberPlace.IsTaken place.front) ∧
      Nat.ofDigitChars 10 place.digits 0 = value := by
  obtain ⟨htext, hread, -⟩ := (h.mem_iff place).1 hplace
  obtain ⟨hcount, hvalue⟩ := (countAt?_eq_some_iff hread.toStandsAlone).1 hvalue
  exact ⟨htext, ⟨hcount, hread.free⟩, hvalue⟩

theorem mem_of_isCount (h : ListsRead text 0 places) {place : NumberPlace}
    (htext : place.text = text) (hcounts : place.IsCount ∧ ¬ NumberPlace.IsTaken place.front) :
    place ∈ places ∧ countAt? place = some (Nat.ofDigitChars 10 place.digits 0) := by
  have halone := hcounts.1.toStandsAlone
  exact ⟨(h.mem_iff place).2 ⟨htext, ⟨halone, hcounts.2⟩, Nat.zero_le _⟩,
    (countAt?_eq_some_iff halone).2 ⟨hcounts.1, rfl⟩⟩

theorem findSome?_eq_none_iff (h : ListsRead text 0 places) :
    places.findSome? countAt? = none ↔ ∀ place : NumberPlace, place.text = text →
      ¬ (place.IsCount ∧ ¬ NumberPlace.IsTaken place.front) := by
  rw [List.findSome?_eq_none_iff]
  constructor
  · intro hall place htext hcounts
    obtain ⟨hplace, hvalue⟩ := h.mem_of_isCount htext hcounts
    rw [hall place hplace] at hvalue
    cases hvalue
  · intro hall place hplace
    refine Option.eq_none_iff_forall_ne_some.2 fun value hvalue ↦ ?_
    obtain ⟨htext, hcounts, -⟩ := h.countAt?_of_mem hplace hvalue
    exact hall place htext hcounts

/-- The place that is found first is the leftmost one that counts. -/
theorem exists_leftmost (h : ListsRead text 0 places) {value : Nat}
    (hfound : places.findSome? countAt? = some value) :
    ∃ place : NumberPlace, place.text = text ∧
      (place.IsCount ∧ ¬ NumberPlace.IsTaken place.front) ∧
      Nat.ofDigitChars 10 place.digits 0 = value ∧ ∀ other : NumberPlace, other.text = text →
        other.IsCount ∧ ¬ NumberPlace.IsTaken other.front →
          place.front.length ≤ other.front.length := by
  obtain ⟨before, place, after, rfl, hvalue, hbefore⟩ := List.findSome?_eq_some_iff.1 hfound
  obtain ⟨htext, hcounts, hvalue⟩ := h.countAt?_of_mem (by simp) hvalue
  refine ⟨place, htext, hcounts, hvalue, fun other hother hotherCounts ↦ ?_⟩
  obtain ⟨hmem, hotherValue⟩ := h.mem_of_isCount hother hotherCounts
  rcases List.mem_append.1 hmem with hin | hin
  · rw [hbefore other hin] at hotherValue
    cases hotherValue
  · rcases List.mem_cons.1 hin with rfl | hafter
    · exact Nat.le_refl _
    · have hordered := (List.pairwise_append.1 h.inOrder).2.1
      exact Nat.le_of_lt ((List.pairwise_cons.1 hordered).1 other hafter)

end ListsRead

/-- The limit of a question is the positive number at the leftmost place that is read: not at a
place directly behind a blank that belongs to a number in front of it. -/
theorem isFirst_statedLimit (question : String) :
    IsFirst (fun place ↦ place.IsCount ∧ ¬ NumberPlace.IsTaken place.front) question.toList
      (statedLimit question) := by
  obtain ⟨places, hplaces, hlists⟩ := exists_places_numbers question.toList
  rw [statedLimit_eq_findSome? hplaces]
  refine ⟨fun value ↦ ⟨hlists.exists_leftmost, ?_⟩, hlists.findSome?_eq_none_iff⟩
  rintro ⟨place, htext, hcounts, rfl, hleast⟩
  cases hfound : places.findSome? countAt? with
  | none => exact absurd hcounts (hlists.findSome?_eq_none_iff.1 hfound place htext)
  | some value =>
    -- Two leftmost places are the same one.
    obtain ⟨first, hfirst, hfirstCounts, rfl, hfirstLeast⟩ := hlists.exists_leftmost hfound
    have hsame := Nat.le_antisymm (hleast first hfirst hfirstCounts)
      (hfirstLeast place htext hcounts)
    rw [hcounts.1.toStandsAlone.eq_of_length_front hfirstCounts.1.toStandsAlone
      (htext.trans hfirst.symm) hsame]

/-- The only blank belongs to the zero, so the five behind it is not read. -/
theorem not_isFirst_zero_five :
    ¬ IsFirst NumberPlace.IsCount "0 5".toList (statedLimit "0 5") := by
  have hnone : statedLimit "0 5" = none := by decide +kernel
  have halone : NumberPlace.StandsAlone ⟨['0', ' '], ['5'], []⟩ := by
    refine ⟨?_, by decide, by decide, ?_, by simp⟩
    · intro c hc
      obtain rfl := List.mem_singleton.1 hc
      decide +kernel
    · intro c hc
      cases hc
      decide +kernel
  have hcount : NumberPlace.IsCount ⟨['0', ' '], ['5'], []⟩ := by
    refine ⟨halone, ?_, by decide⟩
    intro c hc
    obtain rfl := List.mem_singleton.1 hc
    decide
  rw [hnone]
  rintro ⟨-, hall⟩
  exact hall.1 rfl _ rfl hcount

end AirInquiry.Inference
