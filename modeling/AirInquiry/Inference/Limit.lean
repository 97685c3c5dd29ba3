import AirInquiry.Text.Alphanumeric
import AirInquiry.Text.Blank

/-!
# The number of rows that a question names

A number of one to four digits stands by itself when a blank or the start of the question is in
front of it, and a blank, one of the marks `,!?;:` or the end behind it. So neither a date nor a
name like `PM2.5` holds one. The character behind a number belongs to it: a blank there is not in
front of the next number as well.
-/

set_option autoImplicit false
set_option relaxedAutoImplicit false

namespace AirInquiry.Inference

/-- The largest number of digits. -/
def digitLimit : Nat := 4

/-- Whether a character may stand behind a number. -/
def endsNumber (c : Char) : Bool := Text.isBlank c || [',', '!', '?', ';', ':'].contains c

/-- The digits of a number at the start of a text, with the text behind the number. -/
def numberAt (text : List Char) : Option (List Char × List Char) :=
  let digits := text.takeWhile Text.isDecimalDigit
  if digits.isEmpty || digitLimit < digits.length then none
  else
    match text.dropWhile Text.isDecimalDigit with
    | [] => some (digits, [])
    | c :: rest => if endsNumber c then some (digits, rest) else none

theorem length_lt_of_numberAt {text digits rest : List Char}
    (h : numberAt text = some (digits, rest)) : rest.length < text.length := by
  have hparts := congrArg List.length (List.takeWhile_append_dropWhile (p := Text.isDecimalDigit)
    (l := text))
  rw [List.length_append] at hparts
  simp only [numberAt] at h
  split at h
  · cases h
  · next hdigits =>
    have hpositive : 0 < (text.takeWhile Text.isDecimalDigit).length :=
      List.length_pos_iff.mpr fun hempty ↦ hdigits (by simp [hempty])
    split at h
    · next hrest =>
      cases h
      rw [hrest] at hparts
      simp only [List.length_nil] at hparts ⊢
      omega
    · next hrest =>
      split at h
      · cases h
        rw [hrest] at hparts
        simp only [List.length_cons] at hparts
        omega
      · cases h

/-- The digits of the numbers that stand by themselves behind the start of a text. -/
def laterNumbers : List Char → List (List Char)
  | [] => []
  | c :: rest =>
    if Text.isBlank c then
      match _h : numberAt rest with
      | some (digits, behind) => digits :: laterNumbers behind
      | none => laterNumbers rest
    else laterNumbers rest
termination_by text => text.length
decreasing_by
  · have := length_lt_of_numberAt _h
    simp only [List.length_cons]
    omega
  · simp
  · simp

/-- The digits of the numbers that stand by themselves in a text. -/
def numbers (text : List Char) : List (List Char) :=
  match numberAt text with
  | some (digits, behind) => digits :: laterNumbers behind
  | none => laterNumbers text

/-- The value of digits; only those from `0` to `9` have one. -/
def valueOf? (digits : List Char) : Option Nat :=
  if digits.all Char.isDigit then
    some (digits.foldl (fun value c ↦ value * 10 + (c.toNat - '0'.toNat)) 0)
  else none

/-- The first positive number that stands by itself in a question. -/
def statedLimit (question : String) : Option Nat :=
  ((numbers question.toList).filterMap valueOf?).find? fun value ↦ 0 < value

end AirInquiry.Inference
