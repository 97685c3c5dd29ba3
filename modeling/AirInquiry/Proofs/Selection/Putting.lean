import AirInquiry.Proofs.Json.Entries
import AirInquiry.Proofs.Selection.Path
import AirInquiry.Selection.Object

/-!
# Putting marks into a value

An object is built from a listing by putting its marks into it, one after another
(`FieldChoice.putAll`). Marks whose paths start with the same name change only what stands under
this name, as if they were put into it by themselves (`FieldChoice.putAll_below_name`), and marks
that start with the index behind the last item of a list add one item to it
(`FieldChoice.putAll_below_item`).
-/

set_option autoImplicit false
set_option relaxedAutoImplicit false

namespace AirInquiry.FieldChoice

open GraphQL (isName)
open Json (Entries)

/-- The parts of a path with the mark at its end. -/
abbrev Mark := List (List Char) × Bool

/-- The marks of a listing. -/
def marks (choices : List FieldChoice) : List Mark :=
  choices.map fun choice ↦ (parts choice.path, choice.selected)

/-- The marks with more parts in front of their paths. -/
def below (above : List (List Char)) (marks : List Mark) : List Mark :=
  marks.map fun mark ↦ (above ++ mark.1, mark.2)

/-- A value with marks put into it, one after another. -/
def putAll (value : Json) (marks : List Mark) : Json :=
  marks.foldl (fun value mark ↦ setMark mark.2 mark.1 value) value

theorem toObject_eq (choices : List FieldChoice) :
    toObject choices = putAll (.object []) (marks choices) := by
  rw [toObject, putAll, marks, List.foldl_map]

theorem putAll_append (value : Json) (first second : List Mark) :
    putAll value (first ++ second) = putAll (putAll value first) second :=
  List.foldl_append

theorem below_below (above inside : List (List Char)) (marks : List Mark) :
    below above (below inside marks) = below (above ++ inside) marks := by
  simp [below]

/-! ### One mark -/

/-- What stands under a name once a mark is put there. -/
def putUnder (selected : Bool) (rest : List (List Char)) (old : Json) : Json :=
  if rest.isEmpty then .bool selected else setMark selected rest old

theorem setMark_name {name : String} (hname : isName name = true) (selected : Bool)
    (rest : List (List Char)) (entries : Entries) :
    setMark selected (name.toList :: rest) (.object entries) =
      .object (entries.insert name
        (putUnder selected rest ((entries.get? name).getD (.object [])))) := by
  simp only [setMark, nameAndIndex_name hname, String.ofList_toList]
  rfl

theorem setMark_item {name : String} (hname : isName name = true) {index : Nat}
    (hindex : index < itemLimit) (selected : Bool) (rest : List (List Char)) (entries : Entries) :
    setMark selected (itemPart name index :: rest) (.object entries) =
      .object (entries.insert name (.array (setItem (itemsOf (entries.get? name)) index
        (putUnder selected rest (((itemsOf (entries.get? name))[index]?).getD .null))))) := by
  have hword : index < Text.wordLimit := hindex.trans (by decide)
  simp only [setMark, nameAndIndex_itemPart hname hword, String.ofList_toList]
  rw [if_neg (Nat.not_le.2 hindex)]
  rfl

/-- Null gives way in the same way as an object without entries. -/
theorem setMark_null (selected : Bool) {path : List (List Char)} (hpath : path ≠ []) :
    setMark selected path .null = setMark selected path (.object []) := by
  cases path with
  | nil => exact absurd rfl hpath
  | cons part rest => rfl

theorem setItem_length (items : List Json) (value : Json) :
    setItem items items.length value = items ++ [value] := by
  have hmore : items.length + 1 - items.length = 1 := by omega
  simp [setItem, hmore]

theorem setItem_concat (items : List Json) (old value : Json) :
    setItem (items ++ [old]) items.length value = items ++ [value] := by
  simp [setItem]

/-! ### Marks under one name -/

section Below

variable {name : String} (hname : isName name = true) {marks : List Mark}

include hname

/-- Assumes that all paths go on behind the name. -/
theorem putAll_below_name (hne : marks ≠ []) (hpaths : ∀ mark ∈ marks, mark.1 ≠ [])
    (entries : Entries) :
    putAll (.object entries) (below [name.toList] marks) =
      .object (entries.insert name (putAll ((entries.get? name).getD (.object [])) marks)) := by
  induction marks generalizing entries with
  | nil => exact absurd rfl hne
  | cons mark rest ih =>
    obtain ⟨hmark, hrest⟩ := List.forall_mem_cons.1 hpaths
    have hunder : putUnder mark.2 mark.1 ((entries.get? name).getD (.object [])) =
        setMark mark.2 mark.1 ((entries.get? name).getD (.object [])) :=
      if_neg (by simpa using hmark)
    have hstep : putAll (.object entries) (below [name.toList] (mark :: rest)) =
        putAll (.object (entries.insert name (putUnder mark.2 mark.1
          ((entries.get? name).getD (.object []))))) (below [name.toList] rest) :=
      congrArg (putAll · (below [name.toList] rest)) (setMark_name hname mark.2 mark.1 entries)
    rw [hstep, hunder]
    by_cases hnil : rest = []
    · rw [hnil]
      rfl
    · rw [ih hnil hrest, Json.Entries.get?_insert_self, Json.Entries.insert_insert]
      rfl

variable {items : List Json} (hindex : items.length < itemLimit)

include hindex

/-- Marks for one item of a list. Assumes that there are no items behind it, whether or not it is
there yet, and that all paths go on behind the index. -/
theorem putAll_below_at (hne : marks ≠ []) (hpaths : ∀ mark ∈ marks, mark.1 ≠ []) {old : Json}
    {entries : Entries} (hold : ((itemsOf (entries.get? name))[items.length]?).getD .null = old)
    (hset : ∀ value, setItem (itemsOf (entries.get? name)) items.length value = items ++ [value]) :
    putAll (.object entries) (below [itemPart name items.length] marks) =
      .object (entries.insert name (.array (items ++ [putAll old marks]))) := by
  induction marks generalizing entries old with
  | nil => exact absurd rfl hne
  | cons mark rest ih =>
    obtain ⟨hmark, hrest⟩ := List.forall_mem_cons.1 hpaths
    have hunder : putUnder mark.2 mark.1 old = setMark mark.2 mark.1 old :=
      if_neg (by simpa using hmark)
    have hfirst := setMark_item hname hindex mark.2 mark.1 entries
    rw [hold, hset, hunder] at hfirst
    have hstep : putAll (.object entries) (below [itemPart name items.length] (mark :: rest)) =
        putAll (.object (entries.insert name (.array (items ++ [setMark mark.2 mark.1 old]))))
          (below [itemPart name items.length] rest) :=
      congrArg (putAll · (below [itemPart name items.length] rest)) hfirst
    rw [hstep]
    by_cases hnil : rest = []
    · rw [hnil]
      rfl
    · have hnext : itemsOf ((entries.insert name (.array (items ++
          [setMark mark.2 mark.1 old]))).get? name) = items ++ [setMark mark.2 mark.1 old] := by
        rw [Json.Entries.get?_insert_self]
        rfl
      rw [ih hnil hrest (by rw [hnext, List.getElem?_concat_length, Option.getD_some])
        (fun value ↦ by rw [hnext, setItem_concat]), Json.Entries.insert_insert]
      rfl

/-- A mark at the index behind the last item of a list. -/
theorem putAll_item (selected : Bool) {entries : Entries}
    (hitems : itemsOf (entries.get? name) = items) :
    putAll (.object entries) [([itemPart name items.length], selected)] =
      .object (entries.insert name (.array (items ++ [.bool selected]))) := by
  have hset := setMark_item hname hindex selected [] entries
  rw [hitems, setItem_length] at hset
  exact hset

/-- Marks that start with the index behind the last item of a list add an item, which is what they
make up by themselves. Assumes that all paths go on behind the index. -/
theorem putAll_below_item (hne : marks ≠ []) (hpaths : ∀ mark ∈ marks, mark.1 ≠ [])
    {entries : Entries} (hitems : itemsOf (entries.get? name) = items) :
    putAll (.object entries) (below [itemPart name items.length] marks) =
      .object (entries.insert name (.array (items ++ [putAll (.object []) marks]))) := by
  have hnull : putAll .null marks = putAll (.object []) marks := by
    cases marks with
    | nil => exact absurd rfl hne
    | cons mark rest =>
      exact congrArg (putAll · rest) (setMark_null mark.2 (hpaths mark (.head _)))
  rw [← hnull]
  refine putAll_below_at hname hindex hne hpaths ?_ fun value ↦ ?_
  · rw [hitems, List.getElem?_eq_none (Nat.le_refl _), Option.getD_none]
  · rw [hitems, setItem_length]

end Below

end AirInquiry.FieldChoice
