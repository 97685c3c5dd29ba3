import AirInquiry.Json.Printer
import AirInquiry.Proofs.GraphQL.Name
import AirInquiry.Proofs.GraphQL.Spelling
import Mathlib.Tactic.Common

/-!
# Numbers in a query

An integer is written as a sign and digits without a zero in front (`IsInteger`), and a fraction or
a decimal exponent behind it makes it a floating point number (`IsFloat`). In front of a text that
stands apart each of them is one token (`spells_integer`, `spells_float`).

Every JSON number is written in one of these forms: the text of an integer is an `IsInteger`
(`isInteger_text`), and the layout of data of a floating point number is an `IsFloat`
(`isFloat_dataText`), because the shortest decimal of a number has no zero as its first digit.
-/

set_option autoImplicit false
set_option relaxedAutoImplicit false

namespace AirInquiry.GraphQL

/-- Digits, of which there is at least one. -/
def IsDigits (chars : List Char) : Prop := chars ≠ [] ∧ ∀ c ∈ chars, c.isDigit = true

/-- Digits without a zero in front, or a zero by itself. -/
def IsWhole (chars : List Char) : Prop :=
  IsDigits chars ∧ (chars.head? = some '0' → chars = ['0'])

/-- The text of an integer. -/
def IsInteger (text : List Char) : Prop :=
  IsWhole text ∨ ∃ whole, text = '-' :: whole ∧ IsWhole whole

/-- The text of a fraction behind an integer. -/
def IsFraction (text : List Char) : Prop := ∃ digits, text = '.' :: digits ∧ IsDigits digits

/-- The text of a decimal exponent with a sign. -/
def IsExponent (text : List Char) : Prop :=
  ∃ sign digits, text = 'e' :: sign :: digits ∧ (sign = '+' ∨ sign = '-') ∧ IsDigits digits

/-- The text of a floating point number, by its parts. -/
structure IsFloat (text whole fraction exponent : List Char) : Prop where
  parts : text = whole ++ fraction ++ exponent
  isInteger : IsInteger whole
  isFraction : fraction = [] ∨ IsFraction fraction
  isExponent : exponent = [] ∨ IsExponent exponent
  isMarked : fraction ≠ [] ∨ exponent ≠ []

/-! ### Reading written numbers -/

/-- The text does not go on with a digit. -/
def DigitFree (text : List Char) : Prop := ∀ c ∈ text.head?, c.isDigit = false

theorem Apart.digitFree {rest : List Char} (h : Apart rest) : DigitFree rest := by
  intro c hc
  have hname := h.isNameRest_eq_false c hc
  simp only [isNameRest, Char.isAlphanum, Bool.or_eq_false_iff] at hname
  exact hname.2.2

theorem IsDigits.takeWhile_append {digits rest : List Char} (h : IsDigits digits)
    (hrest : DigitFree rest) : (digits ++ rest).takeWhile Char.isDigit = digits :=
  takeWhile_append_of_head h.2 hrest

theorem wholeDigits?_append {whole rest : List Char} (h : IsWhole whole) (hrest : DigitFree rest) :
    Token.wholeDigits? (whole ++ rest) = some whole := by
  simp only [Token.wholeDigits?, h.1.takeWhile_append hrest, List.isEmpty_iff, h.1.1, if_false]
  split
  · next hzero => rw [h.2 hzero]
  · rfl

theorem IsDigits.head?_eq {digits : List Char} (h : IsDigits digits) :
    ∃ c others, digits = c :: others ∧ c.isDigit = true := by
  cases digits with
  | nil => exact absurd rfl h.1
  | cons c others => exact ⟨c, others, rfl, h.2 c (by simp)⟩

theorem integerPart?_append {whole rest : List Char} (h : IsInteger whole)
    (hrest : DigitFree rest) : Token.integerPart? (whole ++ rest) = some whole := by
  rcases h with h | ⟨digits, rfl, h⟩
  · obtain ⟨c, others, rfl, hc⟩ := h.1.head?_eq
    have hminus : ∀ text, c :: others ++ rest ≠ '-' :: text := by
      rintro text heq
      cases heq
      exact absurd hc (by decide)
    rw [Token.integerPart?.eq_2 _ hminus, wholeDigits?_append h hrest]
  · rw [List.cons_append, Token.integerPart?, wholeDigits?_append h hrest]
    rfl

theorem fractionPart_append {fraction rest : List Char} (h : IsFraction fraction)
    (hrest : DigitFree rest) : Token.fractionPart (fraction ++ rest) = fraction := by
  obtain ⟨digits, rfl, hdigits⟩ := h
  simp only [List.cons_append, Token.fractionPart, hdigits.takeWhile_append hrest,
    List.isEmpty_iff, hdigits.1, if_false]

theorem fractionPart_eq_nil {rest : List Char} (h : ∀ c ∈ rest.head?, c ≠ '.') :
    Token.fractionPart rest = [] := by
  unfold Token.fractionPart
  split
  · exact absurd rfl (h '.' rfl)
  · rfl

theorem exponentPart_append {exponent rest : List Char} (h : IsExponent exponent)
    (hrest : DigitFree rest) : Token.exponentPart (exponent ++ rest) = exponent := by
  obtain ⟨sign, digits, rfl, hsign, hdigits⟩ := h
  have hpart : Token.signPart (sign :: (digits ++ rest)) = [sign] := by
    rcases hsign with rfl | rfl <;> rfl
  simp only [List.cons_append, Token.exponentPart, hpart, List.length_singleton, List.drop_one,
    List.tail_cons, hdigits.takeWhile_append hrest]
  rw [if_pos ⟨by decide, hdigits.1⟩]
  rfl

theorem exponentPart_eq_nil {rest : List Char} (h : ∀ c ∈ rest.head?, c ≠ 'e' ∧ c ≠ 'E') :
    Token.exponentPart rest = [] := by
  cases rest with
  | nil => rfl
  | cons c rest =>
    obtain ⟨hlower, hupper⟩ := h c rfl
    simp [Token.exponentPart, hlower, hupper]

theorem Apart.ne_of_mem_head? {rest : List Char} (h : Apart rest) (mark : Char)
    (hmark : standsApart mark = false) : ∀ c ∈ rest.head?, c ≠ mark := by
  rintro c hc rfl
  rw [h c hc] at hmark
  cases hmark

theorem Apart.endsNumber {rest : List Char} (h : Apart rest) : Token.endsNumber rest = true := by
  cases rest with
  | nil => rfl
  | cons c rest =>
    have hname := h.isNameRest_eq_false c rfl
    have hpoint := h.ne_of_mem_head? '.' (by decide) c rfl
    have hdigit := h.digitFree c rfl
    have hstart : isNameStart c = false := by
      simp only [isNameRest, Char.isAlphanum, Bool.or_eq_false_iff, decide_eq_false_iff_not]
        at hname
      simp [isNameStart, hname.1, hname.2.1]
    simp [Token.endsNumber, hpoint, hdigit, hstart]

/-- A number is read from its parts; each part stops where the next one starts. -/
theorem number?_append {whole fraction exponent rest : List Char} (hwhole : IsInteger whole)
    (hfraction : fraction = [] ∨ IsFraction fraction)
    (hexponent : exponent = [] ∨ IsExponent exponent) (hrest : Apart rest) :
    Token.number? (whole ++ fraction ++ exponent ++ rest) =
      some ((if fraction.isEmpty && exponent.isEmpty then Token.integer else Token.float)
        (String.ofList (whole ++ fraction ++ exponent)),
        (whole ++ fraction ++ exponent).length) := by
  have hexponentRead : Token.exponentPart (exponent ++ rest) = exponent := by
    rcases hexponent with rfl | hexponent
    · exact exponentPart_eq_nil fun c hc ↦
        ⟨hrest.ne_of_mem_head? 'e' (by decide) c hc, hrest.ne_of_mem_head? 'E' (by decide) c hc⟩
    · exact exponentPart_append hexponent hrest.digitFree
  have hbehindFraction : DigitFree (exponent ++ rest) := by
    rcases hexponent with rfl | ⟨sign, digits, rfl, -, -⟩
    · exact hrest.digitFree
    · intro c hc
      cases hc
      rfl
  have hfractionRead : Token.fractionPart (fraction ++ (exponent ++ rest)) = fraction := by
    rcases hfraction with rfl | hfraction
    · refine fractionPart_eq_nil ?_
      rcases hexponent with rfl | ⟨sign, digits, rfl, -, -⟩
      · exact hrest.ne_of_mem_head? '.' (by decide)
      · intro c hc
        cases hc
        decide
    · exact fractionPart_append hfraction hbehindFraction
  have hbehindWhole : DigitFree (fraction ++ (exponent ++ rest)) := by
    rcases hfraction with rfl | ⟨digits, rfl, -⟩
    · exact hbehindFraction
    · intro c hc
      cases hc
      rfl
  have hwholeRead : Token.integerPart? (whole ++ fraction ++ exponent ++ rest) = some whole := by
    simpa only [List.append_assoc] using integerPart?_append hwhole hbehindWhole
  have hfirst : (whole ++ fraction ++ exponent ++ rest).drop whole.length =
      fraction ++ (exponent ++ rest) := by
    simp only [List.append_assoc, List.drop_left]
  have hsecond : (whole ++ fraction ++ exponent ++ rest).drop (whole ++ fraction).length =
      exponent ++ rest := by
    rw [List.append_assoc, List.drop_left]
  rw [Token.number?, hwholeRead]
  simp only [Option.bind_eq_bind, Option.bind_some, hfirst, hfractionRead, hsecond, hexponentRead,
    List.drop_left, hrest.endsNumber, if_true]

theorem IsInteger.head?_eq {text : List Char} (h : IsInteger text) :
    ∃ c others, text = c :: others ∧ (c = '-' ∨ c.isDigit = true) := by
  rcases h with h | ⟨whole, rfl, -⟩
  · obtain ⟨c, others, rfl, hc⟩ := h.1.head?_eq
    exact ⟨c, others, rfl, .inr hc⟩
  · exact ⟨'-', whole, rfl, .inl rfl⟩

theorem isNameStart_eq_false_of_isDigit {c : Char} (h : c.isDigit = true) :
    isNameStart c = false := by
  rw [isDigit_iff] at h
  have hunderscore : c ≠ '_' := by
    rintro rfl
    exact absurd h.2 (by decide)
  have halpha : c.isAlpha = false := by
    rw [Bool.eq_false_iff, ne_eq, isAlpha_iff]
    omega
  simp [isNameStart, hunderscore, halpha]

/-- The first character of a number starts no other token. -/
theorem read?_number {c : Char} (hc : c = '-' ∨ c.isDigit = true) (rest : List Char) :
    Token.read? c rest =
      (Token.number? (c :: rest)).map fun (token, count) ↦ (token, count - 1) := by
  have hmarks : ∀ mark ∈ '"' :: '.' :: Token.marks, mark ≠ '-' ∧ mark.isDigit = false :=
    forall_mem_of_all (by decide)
  have hother : ∀ mark ∈ '"' :: '.' :: Token.marks, c ≠ mark := by
    rintro mark hmark rfl
    rcases hc with rfl | hc
    · exact (hmarks _ hmark).1 rfl
    · rw [(hmarks _ hmark).2] at hc
      cases hc
  have hmark : c ∉ Token.marks := fun hmem ↦ hother c (by simp [hmem]) rfl
  have hstart : isNameStart c = false := by
    rcases hc with rfl | hc
    · decide
    · exact isNameStart_eq_false_of_isDigit hc
  simp [Token.read?, hmark, hstart, hother '"' (by simp), hother '.' (by simp)]

theorem not_ignored_of_number {c : Char} (hc : c = '-' ∨ c.isDigit = true) :
    Token.isIgnored c = false ∧ c ≠ '#' := by
  rcases hc with rfl | hc
  · decide
  · constructor
    · by_contra hignored
      simp only [Token.isIgnored, Bool.or_eq_true, decide_eq_true_eq, Bool.not_eq_false] at hignored
      rcases hignored with ((((rfl | rfl) | rfl) | rfl) | rfl) | rfl <;> revert hc <;> decide
    · rintro rfl
      revert hc
      decide

/-- Assumes that a text is read as one number, whatever stands apart behind it. -/
theorem spells_of_number? {text : List Char} {token : Token}
    (hhead : ∃ c others, text = c :: others ∧ (c = '-' ∨ c.isDigit = true))
    (hread : ∀ rest, Apart rest → Token.number? (text ++ rest) = some (token, text.length)) :
    Spells text [token] := by
  obtain ⟨c, others, rfl, hc⟩ := hhead
  intro rest hrest
  refine readsTo_of_read? (not_ignored_of_number hc).1 (not_ignored_of_number hc).2 ?_
  rw [read?_number hc, ← List.cons_append, hread rest hrest]
  rfl

theorem spells_integer {text : List Char} (h : IsInteger text) :
    Spells text [.integer (String.ofList text)] := by
  refine spells_of_number? h.head?_eq fun rest hrest ↦ ?_
  simpa using number?_append h (.inl rfl) (.inl rfl) hrest

theorem spells_float {text whole fraction exponent : List Char}
    (h : IsFloat text whole fraction exponent) :
    Spells text [.float (String.ofList text)] := by
  have hhead : ∃ c others, text = c :: others ∧ (c = '-' ∨ c.isDigit = true) := by
    obtain ⟨c, others, hwhole, hc⟩ := h.isInteger.head?_eq
    exact ⟨c, others ++ fraction ++ exponent, by rw [h.parts, hwhole]; simp, hc⟩
  have hmarked : (fraction.isEmpty && exponent.isEmpty) = false := by
    rcases h.isMarked with hfraction | hexponent
    · simp [hfraction]
    · simp [hexponent]
  refine spells_of_number? hhead fun rest hrest ↦ ?_
  rw [h.parts, number?_append h.isInteger h.isFraction h.isExponent hrest, hmarked]
  rfl

/-! ### The texts of JSON numbers -/

/-- The decimal digits of a positive number do not start with a zero. -/
theorem head?_toDigits_ne {value : Nat} (h : 0 < value) :
    (Nat.toDigits 10 value).head? ≠ some '0' := by
  induction value using Nat.strongRecOn with
  | ind value ih =>
    by_cases hsmall : value < 10
    · rw [Nat.toDigits_of_lt_base hsmall]
      have hdigit : ∀ digit < 10, 0 < digit → Nat.digitChar digit ≠ '0' := by decide
      simpa using hdigit value hsmall h
    · have hshorter := ih (value / 10) (by omega) (by omega)
      rw [Nat.toDigits_of_base_le (by omega) (by omega)]
      cases hdigits : Nat.toDigits 10 (value / 10) with
      | nil => exact absurd hdigits Nat.toDigits_ne_nil
      | cons c others => simpa [hdigits] using hshorter

theorem isDigits_toDigits (value : Nat) : IsDigits (Nat.toDigits 10 value) :=
  ⟨Nat.toDigits_ne_nil, fun _ hc ↦ Nat.isDigit_of_mem_toDigits (by omega) (by omega) hc⟩

theorem isWhole_toDigits (value : Nat) : IsWhole (Nat.toDigits 10 value) := by
  refine ⟨isDigits_toDigits value, fun hzero ↦ ?_⟩
  rcases Nat.eq_zero_or_pos value with rfl | hpos
  · rfl
  · exact absurd hzero (head?_toDigits_ne hpos)

theorem isInteger_text (value : Int) : IsInteger (Json.Number.integer value).text := by
  simp only [Json.Number.text]
  split
  · exact .inr ⟨_, rfl, isWhole_toDigits _⟩
  · exact .inl (isWhole_toDigits _)

theorem isInteger_toString (value : Nat) : IsInteger (toString value).toList := by
  rw [Nat.toString_eq_repr, Nat.toList_repr]
  exact .inl (isWhole_toDigits value)

theorem digits_ofDigits_pos {digits : Nat} (h : 0 < digits) (exponent : Int) :
    0 < (Decimal.ofDigits digits exponent).digits := by
  unfold Decimal.ofDigits
  split
  · exact Nat.one_pos
  · exact h

/-- Whichever neighbour is taken, it has digits: the one below is taken only where it is not zero.
-/
theorem digits_pos_of_ofLength? {tie : Tie} {interval : Decimal.Interval} {exponent : Int}
    {count : Nat} {decimal : Decimal}
    (h : Decimal.ofLength? tie interval exponent count = some decimal) : 0 < decimal.digits := by
  unfold Decimal.ofLength? at h
  extract_lets _ _ power _ _ _ readsBack below above at h
  have habove : 0 < (Decimal.ofDigits above power).digits :=
    digits_ofDigits_pos (Nat.succ_pos _) power
  split at h
  · cases h
  · next hbelow _ =>
    cases h
    rw [Bool.and_eq_true, decide_eq_true_eq] at hbelow
    exact digits_ofDigits_pos hbelow.2 power
  · cases h
    exact habove
  · next hbelow _ =>
    rw [Bool.and_eq_true, decide_eq_true_eq] at hbelow
    have hbelowPos := digits_ofDigits_pos hbelow.2 power
    split at h
    · cases h
      exact hbelowPos
    split at h
    · cases h
      exact habove
    split at h
    · cases h
      exact hbelowPos
    · cases h
      exact habove

/-- A shortest decimal has a digit other than zero in front, or it is the decimal without digits. -/
theorem shortest_digits (tie : Tie) (x : Binary64) :
    0 < (Decimal.shortest tie x).digits ∨ Decimal.shortest tie x = ⟨0, 0⟩ := by
  unfold Decimal.shortest
  cases hfound : (List.range 17).findSome? fun count ↦
      Decimal.ofLength? tie (Decimal.Interval.of x) (x.exponent - 2) (count + 1) with
  | none => exact .inr (by simp)
  | some decimal =>
    obtain ⟨count, -, hcount⟩ := List.exists_of_findSome?_eq_some hfound
    exact .inl (digits_pos_of_ofLength? hcount)

theorem IsDigits.append {first second : List Char} (hfirst : IsDigits first)
    (hsecond : ∀ c ∈ second, c.isDigit = true) : IsDigits (first ++ second) := by
  refine ⟨by simp [hfirst.1], fun c hc ↦ ?_⟩
  rcases List.mem_append.1 hc with hc | hc
  · exact hfirst.2 c hc
  · exact hsecond c hc

theorem isDigit_of_mem_zeros {count : Nat} : ∀ c ∈ Decimal.zeros count, c.isDigit = true := by
  intro c hc
  rw [List.eq_of_mem_replicate hc]
  rfl

theorem isExponent_exponentText (power : Int) : IsExponent (Decimal.exponentText power) := by
  refine ⟨_, _, rfl, ?_, isDigits_toDigits _⟩
  split
  · exact .inr rfl
  · exact .inl rfl

/-- Digits that start with no zero are whole digits, and so are the first ones of them. -/
theorem isWhole_take {digits : List Char} (hdigits : IsDigits digits)
    (hhead : digits.head? ≠ some '0') (count : Nat) (hcount : 0 < count) :
    IsWhole (digits.take count) := by
  obtain ⟨c, others, rfl, -⟩ := hdigits.head?_eq
  obtain ⟨count, rfl⟩ := Nat.exists_eq_succ_of_ne_zero (Nat.ne_of_gt hcount)
  refine ⟨⟨by simp, fun c hc ↦ hdigits.2 c (List.mem_of_mem_take hc)⟩, fun hzero ↦ ?_⟩
  exact absurd hzero hhead

/-- Each layout of a decimal is a floating point number whose integer part has no sign. -/
theorem isFloat_scientific (decimal : Decimal) (h : 0 < decimal.digits ∨ decimal = ⟨0, 0⟩) :
    ∃ whole fraction exponent, IsWhole whole ∧
      IsFloat decimal.scientific whole fraction exponent := by
  rcases h with hpos | rfl
  swap
  · exact ⟨['0'], ['.', '0'], [], isWhole_toDigits 0, by decide, .inl (isWhole_toDigits 0),
      .inr ⟨['0'], rfl, isDigits_toDigits 0⟩, .inl rfl, .inl (by decide)⟩
  unfold Decimal.scientific
  extract_lets digits point
  have hdigits : IsDigits digits := isDigits_toDigits decimal.digits
  have hhead : digits.head? ≠ some '0' := head?_toDigits_ne hpos
  have hlength : 0 < digits.length := List.length_pos_iff.2 hdigits.1
  clear_value digits
  have hdrop : ∀ count, count < digits.length → IsFraction ('.' :: digits.drop count) :=
    fun count hcount ↦ ⟨_, rfl, by simpa using hcount, fun c hc ↦
      hdigits.2 c (List.mem_of_mem_drop hc)⟩
  split
  · -- The digits and zeros are the integer part.
    have hwhole : IsWhole (digits ++ Decimal.zeros decimal.exponent.toNat) := by
      refine ⟨hdigits.append isDigit_of_mem_zeros, fun hzero ↦ ?_⟩
      obtain ⟨c, others, rfl, -⟩ := hdigits.head?_eq
      exact absurd hzero hhead
    exact ⟨_, ['.', '0'], [], hwhole, by simp, .inl hwhole,
      .inr ⟨['0'], rfl, isDigits_toDigits 0⟩, .inl rfl, .inl (by simp)⟩
  split
  · -- The point stands between the digits.
    next hnegative hpoint =>
    have hcount : point.toNat < digits.length := by omega
    have hwhole := isWhole_take hdigits hhead point.toNat (by omega)
    exact ⟨_, _, [], hwhole, by simp, .inl hwhole, .inr (hdrop _ hcount), .inl rfl, .inl (by simp)⟩
  split
  · -- Zeros stand in front of the digits.
    have hfraction : IsFraction ('.' :: (Decimal.zeros (-point).toNat ++ digits)) := by
      refine ⟨_, rfl, by simp [hdigits.1], fun c hc ↦ ?_⟩
      rcases List.mem_append.1 hc with hc | hc
      · exact isDigit_of_mem_zeros c hc
      · exact hdigits.2 c hc
    exact ⟨['0'], _, [], isWhole_toDigits 0, by simp, .inl (isWhole_toDigits 0), .inr hfraction,
      .inl rfl, .inl (by simp)⟩
  split
  · -- There is one digit and an exponent.
    have hwhole : IsWhole digits := ⟨hdigits, fun hzero ↦ absurd hzero hhead⟩
    have hexponent := isExponent_exponentText (point - 1)
    exact ⟨_, [], _, hwhole, by rw [List.append_nil], .inl hwhole, .inl rfl, .inr hexponent,
      .inr (by simp [Decimal.exponentText])⟩
  · -- The point stands behind the first of several digits.
    have hwhole := isWhole_take hdigits hhead 1 (by omega)
    have hexponent := isExponent_exponentText (point - 1)
    exact ⟨_, _, _, hwhole, rfl, .inl hwhole, .inr (hdrop 1 (by omega)), .inr hexponent,
      .inl (by simp)⟩

theorem isFloat_dataText (x : Binary64) :
    ∃ whole fraction exponent, IsFloat x.dataText whole fraction exponent := by
  have hbody : ∃ whole fraction exponent, IsWhole whole ∧ IsFloat
      (if x.isZero then ['0', '.', '0'] else (Decimal.shortest .even x).scientific)
      whole fraction exponent := by
    split
    · exact isFloat_scientific ⟨0, 0⟩ (.inr rfl)
    · exact isFloat_scientific _ (shortest_digits .even x)
  obtain ⟨whole, fraction, exponent, hwhole, hfloat⟩ := hbody
  unfold Binary64.dataText Binary64.signText
  split
  · exact ⟨'-' :: whole, fraction, exponent, by rw [hfloat.parts]; rfl, .inr ⟨whole, rfl, hwhole⟩,
      hfloat.isFraction, hfloat.isExponent, hfloat.isMarked⟩
  · exact ⟨whole, fraction, exponent, hfloat⟩

end AirInquiry.GraphQL
