import AirInquiry.Proofs.GraphQL.Name
import AirInquiry.Proofs.Text.Pieces
import AirInquiry.Selection.Object
import AirInquiry.Selection.Tree
import Mathlib.Data.List.TakeWhile

/-!
# The parts of a path

A path is cut at its points, and the path that a listing gives to a field has one more part than the
path it starts from: the name of the field (`FieldChoice.parts_childPath`), or the name with the
index of an item (`FieldChoice.parts_itemPath`). Names hold no points and no brackets, so the name
and the index come back from such a part (`FieldChoice.nameAndIndex_name`,
`FieldChoice.nameAndIndex_itemPart`). Only an index that is no word of 64 bits does not.
-/

set_option autoImplicit false
set_option relaxedAutoImplicit false

namespace AirInquiry

open GraphQL (Name isName)

/-! ### Names and indices -/

namespace Text

theorem le_ofDigitChars (digits : List Char) (value : Nat) :
    value ≤ Nat.ofDigitChars 10 digits value := by
  rw [Nat.ofDigitChars_eq_ofDigitChars_zero]
  exact Nat.le_add_right_of_le (Nat.le_mul_of_pos_left value (Nat.pow_pos (by omega)))

/-- Digits are read as their value as long as it lies below the limit. -/
theorem unsignedFrom_of_digits {limit value : Nat} {digits : List Char}
    (hdigits : ∀ c ∈ digits, c.isDigit = true) (h : Nat.ofDigitChars 10 digits value < limit) :
    unsignedFrom limit value digits = .ok (Nat.ofDigitChars 10 digits value) := by
  induction digits generalizing value with
  | nil => rw [unsignedFrom, Nat.ofDigitChars_nil]
  | cons c rest ih =>
    obtain ⟨hc, hrest⟩ := List.forall_mem_cons.1 hdigits
    rw [Nat.ofDigitChars_cons, Nat.mul_comm] at h ⊢
    have hnext := (le_ofDigitChars rest _).trans_lt h
    rw [unsignedFrom, if_neg (by simpa using hc)]
    simp only [if_pos hnext, ih hrest h]

/-- A written number is read as itself. -/
theorem unsigned_toString {limit value : Nat} (h : value < limit) :
    unsigned limit (toString value).toList = .ok value := by
  have hdigits : (toString value).toList = Nat.toDigits 10 value := by simp
  have hall : ∀ c ∈ Nat.toDigits 10 value, c.isDigit = true := fun c hc ↦
    Nat.isDigit_of_mem_toDigits (by omega) (by omega) hc
  have hread : unsignedFrom limit 0 (Nat.toDigits 10 value) = .ok value := by
    rw [unsignedFrom_of_digits hall (by rwa [Nat.ofDigitChars_ten_toDigits]),
      Nat.ofDigitChars_ten_toDigits]
  rw [hdigits]
  -- A plus sign would be passed over, but none stands in front of the digits.
  unfold unsigned
  split
  · next hnil => exact absurd hnil Nat.toDigits_ne_nil
  · next hplus => exact absurd (hall '+' (by rw [hplus]; simp)) (by decide)
  · next hplus => exact absurd (hall '+' (by rw [hplus]; simp)) (by decide)
  · exact hread

theorem trimStart_of_head {chars : List Char} (h : ∀ c ∈ chars.head?, isBlank c = false) :
    trimStart chars = chars := by
  cases chars with
  | nil => rfl
  | cons c rest => rw [trimStart, List.dropWhile_cons_of_neg (by simp [h c rfl])]

/-- Nothing is trimmed if there is no blank at either end. -/
theorem trimChars_of_ends {chars : List Char} (hfirst : ∀ c ∈ chars.head?, isBlank c = false)
    (hlast : ∀ c ∈ chars.getLast?, isBlank c = false) : trimChars chars = chars := by
  have hreverse : trimStart chars.reverse = chars.reverse :=
    trimStart_of_head fun c hc ↦ hlast c (by simpa using hc)
  rw [trimChars, trimStart_of_head hfirst, hreverse, List.reverse_reverse]

end Text

namespace PathTree

open FieldChoice (nameAndIndex parts)

/-- The name that a part of a path is for. -/
def partName (part : List Char) : Option Name :=
  Name.ofString? (String.ofList (nameAndIndex (Text.trimChars part)).1)

theorem nameAndIndex_of_notMem {name : List Char} (h : '[' ∉ name) :
    nameAndIndex name = (name, none) := by
  have hdrop : name.dropWhile (· ≠ '[') = [] := by
    rw [List.dropWhile_eq_nil_iff]
    intro c hc
    simpa using fun heq : c = '[' ↦ h (heq ▸ hc)
  rw [nameAndIndex, hdrop]

/-- What stands in front of the first bracket and what stands behind it. -/
theorem takeWhile_dropWhile_bracketed {name : List Char} (h : '[' ∉ name) (inside : List Char) :
    (name ++ '[' :: inside).takeWhile (· ≠ '[') = name ∧
      (name ++ '[' :: inside).dropWhile (· ≠ '[') = '[' :: inside := by
  have hname : ∀ c ∈ name, (decide (c ≠ '[')) = true := by
    intro c hc
    simpa using fun heq : c = '[' ↦ h (heq ▸ hc)
  constructor
  · rw [List.takeWhile_append_of_pos hname]
    simp
  · rw [List.dropWhile_append_of_pos hname]
    simp

/-- Brackets behind a name either go away or stay as a whole. -/
theorem nameAndIndex_bracketed {name : List Char} (h : '[' ∉ name) (inside : List Char) :
    (nameAndIndex (name ++ '[' :: inside)).1 = name ∨
      (nameAndIndex (name ++ '[' :: inside)).1 = name ++ '[' :: inside := by
  obtain ⟨htake, hdrop⟩ := takeWhile_dropWhile_bracketed h inside
  simp only [nameAndIndex, htake, hdrop]
  split
  · split
    · exact .inl rfl
    · exact .inr rfl
  · exact .inr rfl

/-- The first character of a name is no blank. -/
theorem isBlank_head {name : String} (hname : isName name = true) (behind : List Char) :
    ∀ c ∈ (name.toList ++ behind).head?, Text.isBlank c = false := by
  intro c hc
  cases hchars : name.toList with
  | nil => exact absurd hchars (GraphQL.toList_ne_nil_of_isName hname)
  | cons first rest =>
    rw [hchars] at hc
    cases hc
    exact GraphQL.isBlank_of_isNameRest
      (GraphQL.isNameRest_of_mem hname _ (by rw [hchars]; exact List.mem_cons_self))

/-- A part that is a name is for this name. -/
theorem partName_name {name : String} (hname : isName name = true) :
    partName name.toList = some ⟨name, hname⟩ := by
  have hlast : ∀ c ∈ name.toList.getLast?, Text.isBlank c = false := fun c hc ↦
    GraphQL.isBlank_of_isNameRest
      (GraphQL.isNameRest_of_mem hname c (List.mem_of_mem_getLast? hc))
  have hfirst := isBlank_head hname []
  rw [List.append_nil] at hfirst
  rw [partName, Text.trimChars_of_ends hfirst hlast,
    nameAndIndex_of_notMem (GraphQL.notMem_of_isName hname (by decide)), String.ofList_toList]
  exact Name.ofString?_text ⟨name, hname⟩

/-- A part that is a name with an index is for this name, or for none if the index is too large. -/
theorem text_of_partName_indexed {name : String} (hname : isName name = true) {digits : List Char}
    {found : Name} (h : partName (name.toList ++ ('[' :: digits ++ [']'])) = some found) :
    found.text = name := by
  have hlast : ∀ c ∈ (name.toList ++ ('[' :: digits ++ [']'])).getLast?,
      Text.isBlank c = false := by
    intro c hc
    rw [← List.append_assoc, List.getLast?_concat] at hc
    cases hc
    decide
  rw [partName, Text.trimChars_of_ends (isBlank_head hname _) hlast] at h
  have htext := Name.text_of_ofString? h
  rw [List.cons_append] at htext
  have hbracket : '[' ∉ name.toList := GraphQL.notMem_of_isName hname (by decide)
  rcases nameAndIndex_bracketed hbracket (digits ++ [']']) with hstripped | hkept
  · rw [htext, hstripped, String.ofList_toList]
  · rw [hkept] at htext
    have hkept : '[' ∈ found.text.toList := by
      rw [htext, String.toList_ofList]
      simp
    exact absurd hkept (GraphQL.notMem_of_isName found.isName (by decide))

end PathTree

/-! ### Paths of listed fields -/

namespace FieldChoice

/-- The parts of the path that listing a table starts from, which is empty at the top. -/
def parentParts (parent : String) : List (List Char) :=
  if parent.isEmpty then [] else parts parent

theorem splitChars_childPath (parent : String) {name : String} (hname : isName name = true)
    (behind : List Char) (hbehind : '.' ∉ behind) :
    Text.splitChars '.' ((childPath parent name).toList ++ behind) =
      parentParts parent ++ [name.toList ++ behind] := by
  have hlast : Text.splitChars '.' (name.toList ++ behind) = [name.toList ++ behind] := by
    refine Text.splitChars_of_notMem ?_
    simp [GraphQL.notMem_of_isName hname (c := '.') (by decide), hbehind]
  unfold childPath parentParts
  split
  · exact hlast
  · rw [← hlast, parts, ← Text.splitChars_append]
    simp

theorem childPath_isEmpty {parent name : String} (hname : isName name = true) :
    (childPath parent name).isEmpty = false := by
  have hne := GraphQL.toList_ne_nil_of_isName hname
  rw [Bool.eq_false_iff]
  intro hempty
  rw [String.isEmpty_iff] at hempty
  have hchars := congrArg String.toList hempty
  unfold childPath at hchars
  split at hchars
  · exact hne hchars
  · simp at hchars

theorem parts_childPath (parent : String) {name : String} (hname : isName name = true) :
    parts (childPath parent name) = parentParts parent ++ [name.toList] := by
  have hparts := splitChars_childPath parent hname [] (by simp)
  simpa only [parts, List.append_nil] using hparts

/-- The part for an item of a list. -/
def itemPart (name : String) (index : Nat) : List Char :=
  name.toList ++ ('[' :: (toString index).toList ++ [']'])

theorem parts_itemPath (parent : String) {name : String} (hname : isName name = true)
    (index : Nat) :
    parts (itemPath (childPath parent name) index) =
      parentParts parent ++ [itemPart name index] := by
  have hdigits : '.' ∉ '[' :: (toString index).toList ++ [']'] := by
    have hpoint : '.' ∉ Nat.toDigits 10 index := fun hmem ↦
      absurd (Nat.isDigit_of_mem_toDigits (by omega) (by omega) hmem) (by decide)
    simp [hpoint]
  have hitem : (itemPath (childPath parent name) index).toList =
      (childPath parent name).toList ++ ('[' :: (toString index).toList ++ [']']) := by
    simp [itemPath]
  rw [parts, hitem, splitChars_childPath parent hname _ hdigits, itemPart]

theorem nameAndIndex_name {name : String} (hname : isName name = true) :
    nameAndIndex name.toList = (name.toList, none) :=
  PathTree.nameAndIndex_of_notMem (GraphQL.notMem_of_isName hname (by decide))

/-- Assumes that the index is a word of 64 bits. -/
theorem nameAndIndex_itemPart {name : String} (hname : isName name = true) {index : Nat}
    (hindex : index < Text.wordLimit) :
    nameAndIndex (itemPart name index) = (name.toList, some index) := by
  have hbracket : '[' ∉ name.toList := GraphQL.notMem_of_isName hname (by decide)
  obtain ⟨htake, hdrop⟩ := PathTree.takeWhile_dropWhile_bracketed hbracket
    ((toString index).toList ++ [']'])
  rw [nameAndIndex, itemPart, List.cons_append, htake, hdrop]
  simp only [List.getLast?_concat, List.dropLast_concat, if_true, Text.unsigned_toString hindex]

/-- A part that is a name with an index is for this name. Assumes that the index is a word of 64
bits. -/
theorem partName_itemPart {name : String} (hname : isName name = true) {index : Nat}
    (hindex : index < Text.wordLimit) :
    PathTree.partName (itemPart name index) = some ⟨name, hname⟩ := by
  have hlast : ∀ c ∈ (itemPart name index).getLast?, Text.isBlank c = false := by
    intro c hc
    rw [itemPart, ← List.append_assoc, List.getLast?_concat] at hc
    cases hc
    decide
  have htrim : Text.trimChars (itemPart name index) = itemPart name index :=
    Text.trimChars_of_ends (PathTree.isBlank_head hname _) hlast
  rw [PathTree.partName, htrim, nameAndIndex_itemPart hname hindex, String.ofList_toList]
  exact Name.ofString?_text ⟨name, hname⟩

theorem parentParts_of_isName {parent name : String} (hname : isName name = true) :
    parentParts (childPath parent name) = parts (childPath parent name) := by
  rw [parentParts, childPath_isEmpty hname]
  rfl

theorem parentParts_itemPath (path : String) (index : Nat) :
    parentParts (itemPath path index) = parts (itemPath path index) := by
  have hne : (itemPath path index).isEmpty = false := by
    rw [Bool.eq_false_iff]
    intro hempty
    rw [String.isEmpty_iff] at hempty
    have hchars := congrArg String.toList hempty
    simp [itemPath] at hchars
  rw [parentParts, hne]
  rfl

end FieldChoice

end AirInquiry
