import AirInquiry.Proofs.Selection.Places
import AirInquiry.Proofs.Text.Pieces
import Mathlib.Data.List.Induction
import Mathlib.Data.List.Pairwise

/-!
# Objects that keep their marks

The object of a list of paths has the mark of every path at its place, if no path leads through the
place of another one and no two paths need an object and an array at the same place. All that it has
besides are the objects and arrays on the way to the marks, and the nulls that fill up the arrays
(`FieldChoice.StandsAt`). So the order of the list makes no difference
(`FieldChoice.toObject_keepsMarks`).
-/

set_option autoImplicit false
set_option relaxedAutoImplicit false

namespace AirInquiry.FieldChoice

/-- The steps that a part of a path stands for: the key, and the index if there is one. -/
def partSteps (part : List Char) : List Step :=
  .key (String.ofList (nameAndIndex part).1) :: ((nameAndIndex part).2.map Step.item).toList

/-- The steps of a path. -/
def stepsOf (path : String) : List Step := (parts path).flatMap partSteps

/-- No index in the path is too large for the arrays that paths describe. -/
def IndicesFit (path : String) : Prop :=
  ∀ part ∈ parts path, ∀ index ∈ (nameAndIndex part).2, index < itemLimit

instance : DecidablePred IndicesFit := fun path ↦
  inferInstanceAs (Decidable (∀ part ∈ parts path, ∀ index ∈ (nameAndIndex part).2,
    index < itemLimit))

/-- What may stand at a place of the object of some paths: the mark of a path at its end, an object
or an array where a path goes on, and null before an item that a path goes through. At the top there
is an object without any path, too. -/
inductive StandsAt (fields : List FieldChoice) (steps : List Step) : Json → Prop
  | mark {field : FieldChoice} (hfield : field ∈ fields) (hpath : stepsOf field.path = steps) :
    StandsAt fields steps (.bool field.selected)
  | top {entries : Json.Entries} (hsteps : steps = []) : StandsAt fields steps (.object entries)
  | object {field : FieldChoice} {name : String} {entries : Json.Entries} (hfield : field ∈ fields)
    (hpath : steps ++ [.key name] <+: stepsOf field.path) : StandsAt fields steps (.object entries)
  | array {field : FieldChoice} {index : Nat} {items : List Json} (hfield : field ∈ fields)
    (hpath : steps ++ [.item index] <+: stepsOf field.path) : StandsAt fields steps (.array items)
  | padding {field : FieldChoice} {front : List Step} {index later : Nat} (hfield : field ∈ fields)
    (hsteps : steps = front ++ [.item index]) (hless : index < later)
    (hpath : front ++ [.item later] <+: stepsOf field.path) : StandsAt fields steps .null

variable {mark : Bool} {value found : Json} {steps : List Step} {field : FieldChoice}
  {fields : List FieldChoice}

/-! ### One path -/

/-- Null gives way in the same way as an object without entries. -/
theorem put_null (mark : Bool) (steps : List Step) :
    put mark steps .null = put mark steps (.object []) := by
  cases steps with
  | nil => rfl
  | cons step rest => cases step <;> rfl

/-- A mark is put part by part as it is step by step. -/
theorem setMark_eq_put {path : List (List Char)} (hne : path ≠ [])
    (hfit : ∀ part ∈ path, ∀ index ∈ (nameAndIndex part).2, index < itemLimit) :
    setMark mark path value = put mark (path.flatMap partSteps) value := by
  induction path generalizing value with
  | nil => exact absurd rfl hne
  | cons part rest ih =>
    obtain ⟨hpart, hrest⟩ := List.forall_mem_cons.1 hfit
    have hinner : ∀ old, (if rest.isEmpty then .bool mark else setMark mark rest old) =
        put mark (rest.flatMap partSteps) old := by
      intro old
      cases rest with
      | nil => rfl
      | cons next rest => exact ih (List.cons_ne_nil _ _) hrest
    rw [List.flatMap_cons, partSteps, setMark]
    simp only [hinner]
    generalize nameAndIndex part = found at hpart ⊢
    obtain ⟨name, index⟩ := found
    cases index with
    | none =>
      have hold : put mark (rest.flatMap partSteps) (((entriesOf value).get?
          (String.ofList name)).getD (.object [])) = put mark (rest.flatMap partSteps)
            (((entriesOf value).get? (String.ofList name)).getD .null) := by
        cases (entriesOf value).get? (String.ofList name) with
        | none => exact (put_null mark _).symm
        | some old => rfl
      rw [hold]
      rfl
    | some index =>
      have hitems : itemsOf ((entriesOf value).get? (String.ofList name)) =
          itemsOf (some (((entriesOf value).get? (String.ofList name)).getD .null)) := by
        cases (entriesOf value).get? (String.ofList name) <;> rfl
      dsimp only
      rw [if_neg (Nat.not_le.2 (hpart index rfl)), hitems]
      rfl

/-- The last path of a list is put over the others. -/
theorem toObject_concat (fields : List FieldChoice) (hfit : IndicesFit field.path) :
    toObject (fields ++ [field]) =
      put field.selected (stepsOf field.path) (toObject fields) := by
  rw [toObject, List.foldl_append]
  exact setMark_eq_put (Text.splitChars_ne_nil _ _) hfit

theorem StandsAt.mono {more : List FieldChoice} (h : StandsAt fields steps found)
    (hmore : ∀ field ∈ fields, field ∈ more) : StandsAt more steps found := by
  cases h with
  | mark hfield hpath => exact .mark (hmore _ hfield) hpath
  | top hsteps => exact .top hsteps
  | object hfield hpath => exact .object (hmore _ hfield) hpath
  | array hfield hpath => exact .array (hmore _ hfield) hpath
  | padding hfield hsteps hless hpath => exact .padding (hmore _ hfield) hsteps hless hpath

/-- On the way to a mark stands what leads to it, and elsewhere what stood there before, or null. -/
theorem standsAt_put (hfield : field ∈ fields)
    (hold : ∀ steps found, at? steps value = some found → StandsAt fields steps found)
    (h : at? steps (put field.selected (stepsOf field.path) value) = some found) :
    StandsAt fields steps found := by
  by_cases hway : steps <+: stepsOf field.path
  · obtain ⟨rest, hrest⟩ := hway
    obtain ⟨old, hput⟩ := at?_put_append field.selected steps rest value
    rw [← hrest, hput] at h
    cases h
    cases rest with
    | nil => exact .mark hfield (by rw [← hrest, List.append_nil])
    | cons step rest =>
      have hpath : steps ++ [step] <+: stepsOf field.path := ⟨rest, by simpa using hrest⟩
      cases step with
      | key name => exact .object hfield hpath
      | item index => exact .array hfield hpath
  · rcases at?_of_at?_put hway h with hbefore | ⟨rfl, front, step, other, rfl, hpath, hless⟩
    · exact hold steps found hbefore
    · cases step with
      | key name => exact hless.elim
      | item index =>
        cases other with
        | key name => exact hless.elim
        | item later => exact .padding hfield rfl hless hpath

/-! ### All paths -/

theorem isOrdered_toObject (hfit : ∀ field ∈ fields, IndicesFit field.path) :
    (toObject fields).IsOrdered := by
  induction fields using List.reverseRecOn with
  | nil => exact Json.isOrdered_object_iff.2 ⟨List.Pairwise.nil, by simp⟩
  | append_singleton fields field ih =>
    rw [List.forall_mem_append, List.forall_mem_singleton] at hfit
    rw [toObject_concat fields hfit.2]
    exact isOrdered_put _ _ (ih hfit.1)

theorem standsAt_toObject (hfit : ∀ field ∈ fields, IndicesFit field.path)
    (h : at? steps (toObject fields) = some found) : StandsAt fields steps found := by
  induction fields using List.reverseRecOn generalizing steps found with
  | nil =>
    cases steps with
    | nil =>
      cases h
      exact .top rfl
    | cons step rest => cases step <;> cases h
  | append_singleton fields field ih =>
    rw [List.forall_mem_append, List.forall_mem_singleton] at hfit
    rw [toObject_concat fields hfit.2] at h
    refine standsAt_put (List.mem_append_right _ (List.mem_singleton_self field))
      (fun steps found hfound ↦ ?_) h
    exact (ih hfit.1 hfound).mono fun other hother ↦ List.mem_append_left _ hother

/-- By induction on the list from its end: the last mark is put at its place, and leaves the others. -/
theorem at?_toObject (hfit : ∀ field ∈ fields, IndicesFit field.path)
    (hapart : fields.Pairwise fun first second ↦
      IsApart (stepsOf first.path) (stepsOf second.path)) (hfield : field ∈ fields) :
    at? (stepsOf field.path) (toObject fields) = some (.bool field.selected) := by
  induction fields using List.reverseRecOn with
  | nil => cases hfield
  | append_singleton fields last ih =>
    rw [List.forall_mem_append, List.forall_mem_singleton] at hfit
    obtain ⟨hfields, -, hlast⟩ := List.pairwise_append.1 hapart
    rw [toObject_concat fields hfit.2]
    rcases List.mem_append.1 hfield with hbefore | hsame
    · exact at?_put_of_forks (hlast field hbefore last (List.mem_singleton_self last)).forks
        (ih hfit.1 hfields hbefore)
    · obtain rfl := List.mem_singleton.1 hsame
      exact at?_put_self _ _ _

theorem toObject_eq_foldl (hfit : ∀ field ∈ fields, IndicesFit field.path) :
    toObject fields = fields.foldl
      (fun value field ↦ put field.selected (stepsOf field.path) value) (.object []) := by
  induction fields using List.reverseRecOn with
  | nil => rfl
  | append_singleton fields field ih =>
    rw [List.forall_mem_append, List.forall_mem_singleton] at hfit
    rw [toObject_concat fields hfit.2, ih hfit.1, List.foldl_append]
    rfl

theorem toObject_eq_of_perm {others : List FieldChoice}
    (hfit : ∀ field ∈ fields, IndicesFit field.path)
    (hapart : fields.Pairwise fun first second ↦
      IsApart (stepsOf first.path) (stepsOf second.path)) (hperm : others.Perm fields) :
    toObject others = toObject fields := by
  have hothers : ∀ field ∈ others, IndicesFit field.path := fun field hfield ↦
    hfit field (hperm.subset hfield)
  have hsymm : Std.Symm fun first second : FieldChoice ↦
      IsApart (stepsOf first.path) (stepsOf second.path) := by
    constructor
    intro first second h
    exact IsApart.symm h
  rw [toObject_eq_foldl hothers, toObject_eq_foldl hfit]
  refine (hperm.symm.foldl_eq' (fun first hfirst second hsecond value ↦ ?_) _).symm
  by_cases hsame : first = second
  · rw [hsame]
  · exact put_comm (hapart.forall hfirst hsecond hsame).forks _ _ _

/-- The mark of every path is found at its end. Nothing else is a mark: whatever can be reached is an
object or an array on the way to a mark, or null before an item. The order of the paths makes no
difference. Assumes that no index is too large, that no path starts with another one, and that where
two paths first differ both need an object or both need an array. -/
theorem toObject_keepsMarks (fields : List FieldChoice)
    (hfit : ∀ field ∈ fields, IndicesFit field.path)
    (hapart : fields.Pairwise fun first second ↦
      IsApart (stepsOf first.path) (stepsOf second.path)) :
    (∀ field ∈ fields,
      at? (stepsOf field.path) (toObject fields) = some (.bool field.selected)) ∧
    (toObject fields).IsOrdered ∧
    (∀ steps found, at? steps (toObject fields) = some found → StandsAt fields steps found) ∧
    ∀ others : List FieldChoice, others.Perm fields → toObject others = toObject fields :=
  ⟨fun _ hfield ↦ at?_toObject hfit hapart hfield, isOrdered_toObject hfit,
    fun _ _ hfound ↦ standsAt_toObject hfit hfound,
    fun _ hperm ↦ toObject_eq_of_perm hfit hapart hperm⟩

/-- A name, and fields of two items with one between them. -/
def spacedDistricts : List FieldChoice :=
  [⟨"name", true, none⟩, ⟨"districts[2].name", false, none⟩, ⟨"districts[0].id", true, none⟩]

/-- The item between the two others is null. -/
theorem toObject_keepsMarks_districts :
    at? [.key "districts", .item 2, .key "name"] (toObject spacedDistricts) =
        some (.bool false) ∧
      at? [.key "districts", .item 1] (toObject spacedDistricts) = some .null ∧
      StandsAt spacedDistricts [.key "districts", .item 1] .null ∧
      toObject spacedDistricts.reverse = toObject spacedDistricts := by
  have hname : stepsOf "name" = [.key "name"] := by decide +kernel
  have hlater : stepsOf "districts[2].name" = [.key "districts", .item 2, .key "name"] := by
    decide +kernel
  have hfirst : stepsOf "districts[0].id" = [.key "districts", .item 0, .key "id"] := by
    decide +kernel
  have hapart : spacedDistricts.Pairwise fun first second ↦
      IsApart (stepsOf first.path) (stepsOf second.path) := by
    have hnames : IsApart [.key "name"] [.key "districts", .item 2, .key "name"] :=
      Forks.isApart (.here (by decide) trivial)
    have hother : IsApart [.key "name"] [.key "districts", .item 0, .key "id"] :=
      Forks.isApart (.here (by decide) trivial)
    have hitems : IsApart [.key "districts", .item 2, .key "name"]
        [.key "districts", .item 0, .key "id"] :=
      Forks.isApart (.ahead (.here (by decide) trivial))
    simp [spacedDistricts, hname, hlater, hfirst, hnames, hother, hitems]
  obtain ⟨hmarks, -, hstands, horder⟩ :=
    toObject_keepsMarks spacedDistricts (by decide +kernel) hapart
  have hnull : at? [.key "districts", .item 1] (toObject spacedDistricts) = some .null :=
    rfl
  refine ⟨?_, hnull, hstands _ _ hnull, horder _ (List.reverse_perm _)⟩
  rw [← hlater]
  exact hmarks ⟨"districts[2].name", false, none⟩ (by decide)

end AirInquiry.FieldChoice
