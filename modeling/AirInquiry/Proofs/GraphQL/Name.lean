import AirInquiry.GraphQL.Name
import AirInquiry.Proofs.Text.Ranges
import Mathlib.Logic.Function.Basic

/-!
# The characters of names

Every character of a name is an underscore, a letter or a digit of ASCII, so no name is empty, and
none holds a blank, a point or a bracket (`GraphQL.notMem_of_isName`,
`GraphQL.isBlank_of_isNameRest`).
-/

set_option autoImplicit false
set_option relaxedAutoImplicit false

namespace AirInquiry

namespace GraphQL

theorem isAlpha_iff {c : Char} :
    c.isAlpha = true ↔ 65 ≤ c.toNat ∧ c.toNat ≤ 90 ∨ 97 ≤ c.toNat ∧ c.toNat ≤ 122 := by
  change (decide ('A'.val ≤ c.val ∧ c.val ≤ 'Z'.val) ||
    (decide ('a'.val ≤ c.val) && decide (c.val ≤ 'z'.val))) = true ↔ _
  simp only [Bool.or_eq_true, Bool.and_eq_true, decide_eq_true_eq]
  rfl

theorem isDigit_iff {c : Char} : c.isDigit = true ↔ 48 ≤ c.toNat ∧ c.toNat ≤ 57 :=
  Char.isDigit_iff_toNat

theorem toNat_of_isNameRest {c : Char} (h : isNameRest c = true) :
    48 ≤ c.toNat ∧ c.toNat ≤ 122 := by
  simp only [isNameRest, Char.isAlphanum, Bool.or_eq_true, decide_eq_true_eq, isAlpha_iff,
    isDigit_iff] at h
  rcases h with rfl | (h | h) | h
  · decide
  · omega
  · omega
  · omega

theorem isBlank_of_isNameRest {c : Char} (h : isNameRest c = true) : Text.isBlank c = false := by
  obtain ⟨hlow, hhigh⟩ := toNat_of_isNameRest h
  have houtside : ∀ range ∈ Text.blankRanges, range.2 < 48 ∨ 122 < range.1 := by decide
  refine Text.inRanges_eq_false fun range hrange ↦ ?_
  rcases houtside range hrange with hbelow | habove
  · exact .inr (by omega)
  · exact .inl (by omega)

theorem Name.text_injective : Function.Injective Name.text := by
  rintro ⟨text, hname⟩ ⟨other, hother⟩ h
  cases h
  rfl

theorem isNameRest_of_isNameStart {c : Char} (h : isNameStart c = true) : isNameRest c = true := by
  simp only [isNameStart, Bool.or_eq_true] at h
  simp only [isNameRest, Char.isAlphanum, Bool.or_eq_true]
  exact h.imp_right .inl

theorem isNameRest_of_mem {name : String} (h : isName name = true) :
    ∀ c ∈ name.toList, isNameRest c = true := by
  unfold isName at h
  cases hchars : name.toList with
  | nil => simp
  | cons c rest =>
    rw [hchars] at h
    simp only [isNameChars, Bool.and_eq_true, List.all_eq_true] at h
    rw [List.forall_mem_cons]
    exact ⟨isNameRest_of_isNameStart h.1, h.2⟩

theorem toList_ne_nil_of_isName {name : String} (h : isName name = true) : name.toList ≠ [] := by
  intro hnil
  rw [isName, hnil] at h
  cases h

theorem notMem_of_isName {name : String} (hname : isName name = true) {c : Char}
    (hc : isNameRest c = false) : c ∉ name.toList := by
  intro hmem
  rw [isNameRest_of_mem hname c hmem] at hc
  cases hc

end GraphQL

end AirInquiry
