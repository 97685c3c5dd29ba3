import AirInquiry.Number.Binary64
import Mathlib.Tactic.Ring
import Mathlib.Tactic.Positivity
import Mathlib.Tactic.NormNum

/-!
# Rounded integers

An integer is representable as a floating point number if it is a power of two times a significand
of at most 53 bits. The nearest representable integer, of two nearest ones that with an even
significand, is what the integer is rounded to (`IsRounded`). There is only one such integer
(`IsRounded.eq`), rounding keeps the order (`IsRounded.le`), and a representable integer is rounded
to itself (`IsRounded.eq_self`).

The conversion of an integer to a floating point number is this rounding
(`exists_isRounded_units_ofInt`): it is a rounded quotient by the distance of the representable
integers at its size.
-/

set_option autoImplicit false
set_option relaxedAutoImplicit false

namespace AirInquiry.Binary64

/-- The integer is a power of two times a significand of at most 53 bits. -/
def IsRepresentable (value : Int) : Prop :=
  ∃ (significand : Int) (exponent : Nat),
    value = significand * 2 ^ exponent ∧ significand.natAbs < 2 ^ 53

/-- The integer is a power of two times an even significand of at most 53 bits. -/
def HasEvenSignificand (value : Int) : Prop :=
  ∃ (half : Int) (exponent : Nat), value = 2 * half * 2 ^ exponent ∧ (2 * half).natAbs < 2 ^ 53

/-- No representable integer is nearer to the value, and if another one is as near as this one, then
this one has an even significand. -/
structure IsRounded (value rounded : Int) : Prop where
  isRepresentable : IsRepresentable rounded
  nearest : ∀ other, IsRepresentable other →
    (value - rounded).natAbs ≤ (value - other).natAbs
  even : ∀ other, IsRepresentable other → (value - other).natAbs = (value - rounded).natAbs →
    other = rounded ∨ HasEvenSignificand rounded

variable {value other first second rounded : Int}

/-! ### Rounding as a function of the integer -/

/-- Between two even significands there is an odd one: next to that of the smaller exponent. -/
theorem exists_isRepresentable_between (hfirst : HasEvenSignificand first)
    (hsecond : HasEvenSignificand second) (hless : first < second) :
    ∃ middle, IsRepresentable middle ∧ first < middle ∧ middle < second := by
  obtain ⟨a, i, rfl, ha⟩ := hfirst
  obtain ⟨b, j, rfl, hb⟩ := hsecond
  rcases le_total i j with hle | hle
  · obtain ⟨k, rfl⟩ := Nat.exists_eq_add_of_le hle
    have hunit : (0 : Int) < 2 ^ i := by positivity
    have hsame : 2 * b * 2 ^ (i + k) = 2 * (b * 2 ^ k) * 2 ^ i := by ring
    rw [hsame] at hless ⊢
    have hhalves : 2 * a < 2 * (b * 2 ^ k) := lt_of_mul_lt_mul_right hless hunit.le
    refine ⟨(2 * a + 1) * 2 ^ i, ⟨2 * a + 1, i, rfl, by omega⟩, ?_, ?_⟩
    · exact mul_lt_mul_of_pos_right (by omega) hunit
    · exact mul_lt_mul_of_pos_right (by omega) hunit
  · obtain ⟨k, rfl⟩ := Nat.exists_eq_add_of_le hle
    have hunit : (0 : Int) < 2 ^ j := by positivity
    have hsame : 2 * a * 2 ^ (j + k) = 2 * (a * 2 ^ k) * 2 ^ j := by ring
    rw [hsame] at hless ⊢
    have hhalves : 2 * (a * 2 ^ k) < 2 * b := lt_of_mul_lt_mul_right hless hunit.le
    refine ⟨(2 * b - 1) * 2 ^ j, ⟨2 * b - 1, j, rfl, by omega⟩, ?_, ?_⟩
    · exact mul_lt_mul_of_pos_right (by omega) hunit
    · exact mul_lt_mul_of_pos_right (by omega) hunit

theorem IsRounded.le_other (hfirst : IsRounded value first) (hsecond : IsRounded value second) :
    second ≤ first := by
  by_contra hle
  have hless : first < second := Int.not_le.1 hle
  have hsame : (value - second).natAbs = (value - first).natAbs :=
    le_antisymm (hsecond.nearest first hfirst.isRepresentable)
      (hfirst.nearest second hsecond.isRepresentable)
  have hevenFirst := (hfirst.even second hsecond.isRepresentable hsame).resolve_left hless.ne'
  have hevenSecond := (hsecond.even first hfirst.isRepresentable hsame.symm).resolve_left hless.ne
  obtain ⟨middle, hmiddle, hlow, hhigh⟩ :=
    exists_isRepresentable_between hevenFirst hevenSecond hless
  have hnearest := hfirst.nearest middle hmiddle
  omega

theorem IsRounded.eq (hfirst : IsRounded value first) (hsecond : IsRounded value second) :
    first = second :=
  le_antisymm (hsecond.le_other hfirst) (hfirst.le_other hsecond)

/-- Two values that were rounded past each other would be the same value, half way between. -/
theorem IsRounded.le (hvalue : IsRounded value first) (hother : IsRounded other second)
    (hle : value ≤ other) : first ≤ second := by
  by_contra hless
  have hnearest := hvalue.nearest second hother.isRepresentable
  have hother' := hother.nearest first hvalue.isRepresentable
  have hsame : value = other := by omega
  subst hsame
  exact hless (hvalue.eq hother).le

theorem IsRounded.eq_self (hvalue : IsRepresentable value) (h : IsRounded value rounded) :
    rounded = value := by
  have hnearest := h.nearest value hvalue
  omega

theorem IsRepresentable.mul_two_pow (h : IsRepresentable value) (exponent : Nat) :
    IsRepresentable (value * 2 ^ exponent) := by
  obtain ⟨significand, own, rfl, hbound⟩ := h
  exact ⟨significand, own + exponent, by ring, hbound⟩

theorem isRepresentable_of_natAbs_le (h : value.natAbs ≤ 2 ^ 53) : IsRepresentable value := by
  rcases h.lt_or_eq with hless | hlimit
  · exact ⟨value, 0, by ring, hless⟩
  · exact ⟨value / 2, 1, by omega, by omega⟩

/-- Among the integers of 64 bits the representable ones are at most 2048 apart. -/
theorem IsRounded.natAbs_sub_le (h : IsRounded value rounded) (hvalue : value.natAbs ≤ 2 ^ 64) :
    (value - rounded).natAbs ≤ 1024 := by
  have hmultiple : IsRepresentable ((value + 1024) / 2048 * 2 ^ 11) :=
    (isRepresentable_of_natAbs_le (by omega)).mul_two_pow 11
  have hnearest := h.nearest _ hmultiple
  omega

/-! ### Opposite integers -/

theorem IsRepresentable.neg (h : IsRepresentable value) : IsRepresentable (-value) := by
  obtain ⟨significand, exponent, rfl, hbound⟩ := h
  exact ⟨-significand, exponent, by ring, by rwa [Int.natAbs_neg]⟩

theorem HasEvenSignificand.neg (h : HasEvenSignificand value) : HasEvenSignificand (-value) := by
  obtain ⟨half, exponent, rfl, hbound⟩ := h
  exact ⟨-half, exponent, by ring, by rwa [mul_neg, Int.natAbs_neg]⟩

theorem IsRounded.neg (h : IsRounded value rounded) : IsRounded (-value) (-rounded) where
  isRepresentable := h.isRepresentable.neg
  nearest other hother := by
    have hnearest := h.nearest (-other) hother.neg
    omega
  even other hother hsame := by
    rcases h.even (-other) hother.neg (by omega) with heq | heven
    · exact .inl (by omega)
    · exact .inr heven.neg

/-! ### Rounded quotients -/

/-- The rounded quotient is at most half a divisor off, and even if it is as much as that. -/
theorem divideToEven_error (numerator denominator : Nat) (hpos : 0 < denominator) :
    2 * ((numerator : Int) - divideToEven numerator denominator * denominator).natAbs ≤
        denominator ∧
      (2 * ((numerator : Int) - divideToEven numerator denominator * denominator).natAbs =
        denominator → divideToEven numerator denominator % 2 = 0) := by
  have hparts : denominator * (numerator / denominator) + numerator % denominator = numerator :=
    Nat.div_add_mod numerator denominator
  have hrest : numerator % denominator < denominator := Nat.mod_lt numerator hpos
  simp only [divideToEven]
  generalize numerator / denominator = quotient at *
  generalize numerator % denominator = rest at *
  subst hparts
  have hdown : ((denominator * quotient + rest : Nat) : Int) - quotient * denominator = rest := by
    push_cast
    ring
  have hup : ((denominator * quotient + rest : Nat) : Int) -
      (quotient + 1 : Nat) * denominator = rest - denominator := by
    push_cast
    ring
  split_ifs with hless hmore heven
  · rw [hdown]
    omega
  · rw [hup]
    omega
  · rw [hdown]
    omega
  · rw [hup]
    omega

/-- No other multiple of the divisor is nearer, and only one with an even quotient lets another one
be as near. -/
theorem divideToEven_nearest (numerator denominator : Nat) (hpos : 0 < denominator) (other : Int) :
    ((numerator : Int) - divideToEven numerator denominator * denominator).natAbs ≤
        ((numerator : Int) - other * denominator).natAbs ∧
      (((numerator : Int) - other * denominator).natAbs =
          ((numerator : Int) - divideToEven numerator denominator * denominator).natAbs →
        other = divideToEven numerator denominator ∨
          divideToEven numerator denominator % 2 = 0) := by
  obtain ⟨herror, heven⟩ := divideToEven_error numerator denominator hpos
  generalize divideToEven numerator denominator = quotient at *
  by_cases hsame : other = quotient
  · subst hsame
    exact ⟨le_rfl, fun _ ↦ .inl rfl⟩
  · have hapart : (denominator : Int) ≤ ((other - quotient) * denominator).natAbs := by
      rw [Int.natAbs_mul, Int.natAbs_natCast]
      exact_mod_cast Nat.le_mul_of_pos_left denominator (by omega)
    have hsplit : ((numerator : Int) - other * denominator) =
        ((numerator : Int) - quotient * denominator) - (other - quotient) * denominator := by
      ring
    rw [hsplit]
    generalize (numerator : Int) - quotient * denominator = error at *
    generalize (other - quotient) * denominator = step at *
    exact ⟨by omega, fun hequal ↦ .inr (heven (by omega))⟩

theorem divideToEven_one (numerator : Nat) : divideToEven numerator 1 = numerator := by
  simp [divideToEven, Nat.mod_one]

/-! ### Natural numbers -/

/-- The distance of the representable integers at a number: there are `2 ^ 52` of them from a power
of two to the next one. -/
def spacing (number : Nat) : Nat := 2 ^ (number.log2 - 52)

/-- The multiple of the spacing that is nearest to a number. -/
def nearest (number : Nat) : Nat := divideToEven number (spacing number) * spacing number

theorem spacing_pos (number : Nat) : 0 < spacing number := Nat.two_pow_pos _

theorem lt_spacing (number : Nat) : number < 2 ^ 53 * spacing number := by
  have hless : number < 2 ^ (number.log2 + 1) := Nat.lt_log2_self
  have hle : 2 ^ (number.log2 + 1) ≤ 2 ^ (53 + (number.log2 - 52)) :=
    Nat.pow_le_pow_right (by decide) (by omega)
  rw [pow_add 2 53] at hle
  exact hless.trans_le hle

theorem le_divideToEven (number : Nat) : divideToEven number (spacing number) ≤ 2 ^ 53 := by
  have hquotient : number / spacing number < 2 ^ 53 :=
    (Nat.div_lt_iff_lt_mul (spacing_pos number)).2 (lt_spacing number)
  simp only [divideToEven]
  split_ifs <;> omega

theorem isRepresentable_nearest (number : Nat) : IsRepresentable (nearest number) := by
  rcases (le_divideToEven number).lt_or_eq with hless | hlimit
  · exact ⟨divideToEven number (spacing number), number.log2 - 52,
      by rw [nearest, spacing]; push_cast; rfl, by simpa using hless⟩
  · refine ⟨2 ^ 52, number.log2 - 52 + 1, ?_, by norm_num⟩
    rw [nearest, hlimit, spacing, pow_succ]
    push_cast
    ring

theorem hasEvenSignificand_nearest {number : Nat}
    (heven : divideToEven number (spacing number) % 2 = 0) :
    HasEvenSignificand (nearest number) := by
  rcases (le_divideToEven number).lt_or_eq with hless | hlimit
  · refine ⟨(divideToEven number (spacing number) / 2 : Nat), number.log2 - 52, ?_, by omega⟩
    have htwice : (2 * (divideToEven number (spacing number) / 2 : Nat) : Int) =
        divideToEven number (spacing number) := by omega
    rw [htwice, nearest]
    push_cast [spacing]
    rfl
  · refine ⟨2 ^ 51, number.log2 - 52 + 1, ?_, by norm_num⟩
    rw [nearest, hlimit, spacing, pow_succ]
    push_cast
    ring

/-- A representable integer is a multiple of the spacing, or lies below the power of two at or under
the number. -/
theorem IsRepresentable.cases (h : IsRepresentable other) (number : Nat) :
    (∃ quotient : Int, other = quotient * spacing number) ∨
      other < 2 ^ 52 * spacing number ∧ 2 ^ 52 * spacing number ≤ number := by
  obtain ⟨significand, exponent, rfl, hbound⟩ := h
  rcases le_or_gt (number.log2 - 52) exponent with hle | hless
  · obtain ⟨k, rfl⟩ := Nat.exists_eq_add_of_le hle
    refine .inl ⟨significand * 2 ^ k, ?_⟩
    push_cast [spacing]
    ring
  · right
    obtain ⟨k, hk⟩ := Nat.exists_eq_add_of_lt hless
    have hspacing : spacing number = 2 ^ (exponent + k + 1) := by rw [spacing, hk]
    constructor
    · have hunit : (0 : Int) < 2 ^ exponent := by positivity
      have hgrowth : (1 : Int) ≤ 2 ^ k := one_le_pow₀ (by norm_num)
      have hscaled : (2 ^ 52 * spacing number : Int) = (2 ^ 53 * 2 ^ k) * 2 ^ exponent := by
        rw [hspacing]
        push_cast
        ring
      rw [hscaled]
      exact mul_lt_mul_of_pos_right (by omega) hunit
    · have hnumber : number ≠ 0 := by
        rintro rfl
        rw [Nat.log2_zero] at hless
        omega
      have hlog : 52 + (number.log2 - 52) = number.log2 := by omega
      rw [spacing, ← pow_add, hlog]
      exact Nat.log2_self_le hnumber

theorem isRounded_nearest (number : Nat) : IsRounded number (nearest number) := by
  have hpos := spacing_pos number
  have hcast : ((nearest number : Nat) : Int) =
      divideToEven number (spacing number) * spacing number := by rw [nearest]; push_cast; rfl
  refine ⟨isRepresentable_nearest number, fun other hother ↦ ?_, fun other hother hsame ↦ ?_⟩
  · rw [hcast]
    rcases hother.cases number with ⟨quotient, rfl⟩ | ⟨hless, hle⟩
    · exact (divideToEven_nearest number _ hpos quotient).1
    · have hpower := (divideToEven_nearest number _ hpos (2 ^ 52)).1
      omega
  · rw [hcast] at hsame ⊢
    rcases hother.cases number with ⟨quotient, rfl⟩ | ⟨hless, hle⟩
    · rcases (divideToEven_nearest number _ hpos quotient).2 hsame with rfl | heven
      · exact .inl rfl
      · rw [← hcast]
        exact .inr (hasEvenSignificand_nearest heven)
    · have hpower := (divideToEven_nearest number _ hpos (2 ^ 52)).1
      omega

/-! ### Conversion -/

/-- The quotient lies between `2 ^ 52` and `2 ^ 53`, with the spacing as its denominator. -/
theorem scaledRatio_one (number : Nat) : scaledRatio number 1 ((number.log2 : Int) - 52) =
    (number * 2 ^ (52 - number.log2), spacing number) := by
  rw [scaledRatio, spacing]
  split_ifs with hsmall
  · have hup : (-((number.log2 : Int) - 52)).toNat = 52 - number.log2 := by omega
    have hdown : number.log2 - 52 = 0 := by omega
    rw [hup, hdown]
    rfl
  · have hup : 52 - number.log2 = 0 := by omega
    have hdown : ((number.log2 : Int) - 52).toNat = number.log2 - 52 := by omega
    rw [hup, hdown, pow_zero, mul_one, one_mul]
    rfl

theorem exponentOf_one {number : Nat} (hnumber : number ≠ 0) :
    exponentOf number 1 = (number.log2 : Int) - 52 := by
  have hlow : 2 ^ number.log2 ≤ number := Nat.log2_self_le hnumber
  have hguess : (number.log2 : Int) - Nat.log2 1 - 52 = (number.log2 : Int) - 52 := by
    have hlog : Nat.log2 1 = 0 := rfl
    rw [hlog, Nat.cast_zero, sub_zero]
  have hquotient : Nat.pow 2 52 ≤ number * 2 ^ (52 - number.log2) / spacing number := by
    rw [Nat.le_div_iff_mul_le (spacing_pos number), spacing, Nat.pow_eq, ← pow_add]
    calc 2 ^ (52 + (number.log2 - 52)) = 2 ^ number.log2 * 2 ^ (52 - number.log2) := by
          rw [← pow_add]
          congr 1
          omega
      _ ≤ number * 2 ^ (52 - number.log2) := Nat.mul_le_mul_right _ hlow
  simp only [exponentOf, hguess, scaledRatio_one]
  rw [if_neg (Nat.not_lt.2 hquotient), leastExponent]
  omega

theorem divideToEven_scaled (number : Nat) :
    divideToEven (number * 2 ^ (52 - number.log2)) (spacing number) =
      divideToEven number (spacing number) * 2 ^ (52 - number.log2) := by
  rcases le_total number.log2 52 with hsmall | hlarge
  · have hspacing : spacing number = 1 := by rw [spacing, Nat.sub_eq_zero_of_le hsmall, pow_zero]
    rw [hspacing, divideToEven_one, divideToEven_one]
  · rw [Nat.sub_eq_zero_of_le hlarge, pow_zero, mul_one, mul_one]

/-- The number of times that the least positive number goes into one. -/
def unitsOfOne : Nat := 2 ^ leastExponent.natAbs

theorem exists_ofRatio?_one (negative : Bool) {number : Nat} (hnumber : number ≠ 0)
    (hlimit : number.log2 < 1000) : ∃ x, ofRatio? negative number 1 = some x ∧
      x.negative = negative ∧
      x.significand * 2 ^ (x.exponent - leastExponent).toNat = nearest number * unitsOfOne := by
  have hmagnitude : divideToEven number (spacing number) * 2 ^ (52 - number.log2) *
      2 ^ ((number.log2 : Int) - 52 - leastExponent).toNat = nearest number * unitsOfOne := by
    have hpowers : 52 - number.log2 + ((number.log2 : Int) - 52 - leastExponent).toNat =
        number.log2 - 52 + leastExponent.natAbs := by
      rw [leastExponent]
      omega
    rw [nearest, spacing, unitsOfOne, mul_assoc, ← pow_add, hpowers, pow_add, mul_assoc]
  simp only [ofRatio?, if_neg hnumber, exponentOf_one hnumber, scaledRatio_one,
    divideToEven_scaled]
  split_ifs with hcarry hlarge
  · simp only [largestExponent] at hlarge
    omega
  · refine ⟨_, rfl, rfl, ?_⟩
    rw [← hmagnitude, hcarry]
    have hnext : ((number.log2 : Int) - 52 + 1 - leastExponent).toNat =
        ((number.log2 : Int) - 52 - leastExponent).toNat + 1 := by
      rw [leastExponent]
      omega
    rw [hnext, pow_succ]
    have htwice : Nat.pow 2 53 = Nat.pow 2 52 * 2 := rfl
    rw [htwice]
    ring
  · simp only [largestExponent] at *
    omega
  · exact ⟨_, rfl, rfl, hmagnitude⟩

theorem units_eq (x : Binary64) : x.units =
    if x.negative then -((x.significand * 2 ^ (x.exponent - leastExponent).toNat : Nat) : Int)
    else (x.significand * 2 ^ (x.exponent - leastExponent).toNat : Nat) :=
  rfl

/-- The floating point number of an integer is what the integer is rounded to. -/
theorem exists_isRounded_units_ofInt (hvalue : value.natAbs.log2 < 1000) :
    ∃ rounded, IsRounded value rounded ∧ (ofInt value).units = rounded * unitsOfOne := by
  have hnearest := isRounded_nearest value.natAbs
  by_cases hzero : value = 0
  · subst hzero
    exact ⟨0, hnearest, by rw [zero_mul]; rfl⟩
  obtain ⟨x, hx, hnegative, hmagnitude⟩ :=
    exists_ofRatio?_one (decide (value < 0)) (Int.natAbs_ne_zero.2 hzero) hvalue
  have hunits : (ofInt value).units = x.units := by rw [ofInt, hx, Option.getD_some]
  rw [hunits, units_eq, hnegative, hmagnitude]
  by_cases hsign : value < 0
  · have hopposite : value = -(value.natAbs : Int) := by omega
    refine ⟨-(nearest value.natAbs : Int), ?_, ?_⟩
    · rw [hopposite, Int.natAbs_neg, Int.natAbs_natCast]
      exact hnearest.neg
    · rw [decide_eq_true hsign, if_pos rfl, Nat.cast_mul, neg_mul]
  · have hsame : value = (value.natAbs : Int) := by omega
    refine ⟨(nearest value.natAbs : Int), ?_, ?_⟩
    · rw [hsame, Int.natAbs_natCast]
      exact hnearest
    · rw [decide_eq_false hsign, if_neg (by decide), Nat.cast_mul]

end AirInquiry.Binary64
