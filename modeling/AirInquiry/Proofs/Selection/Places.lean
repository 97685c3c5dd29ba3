import AirInquiry.Proofs.Json.Ordered
import AirInquiry.Selection.Object

/-!
# Places in a value

A step leads from an object to what it has under a key, or from an array to one of its items
(`FieldChoice.child?`), and several steps lead to a place further inside (`FieldChoice.at?`). A mark
is put at a place step by step (`FieldChoice.put`). It is then found there (`at?_put_append`), and
at every other place stands what stood there before, except for the nulls that fill up an array
(`at?_of_at?_put`).

Two paths are apart if neither leads through the place of the other and neither needs an object where
the other one needs an array (`FieldChoice.IsApart`). Marks at such places do not touch each other:
what was put first stays (`at?_put_of_forks`), and which one is first does not matter (`put_comm`).
-/

set_option autoImplicit false
set_option relaxedAutoImplicit false

namespace AirInquiry.FieldChoice

/-! ### Items -/

/-- The item that is set, the other items as they were, and nulls between them. -/
theorem getElem?_setItem (items : List Json) (index : Nat) (value : Json) (place : Nat) :
    (setItem items index value)[place]? =
      if place = index then some value
      else items[place]?.or (if place < index then some .null else none) := by
  rw [setItem]
  split_ifs with hsame hbefore
  · rw [hsame]
    exact List.getElem?_set_self (by rw [List.length_append, List.length_replicate]; omega)
  · rw [List.getElem?_set_ne (Ne.symm hsame)]
    by_cases hthere : place < items.length
    · rw [List.getElem?_append_left hthere, List.getElem?_eq_getElem hthere, Option.some_or]
    · rw [List.getElem?_append_right (Nat.not_lt.1 hthere), List.getElem?_replicate_of_lt (by omega),
        List.getElem?_eq_none (Nat.not_lt.1 hthere), Option.none_or]
  · rw [List.getElem?_set_ne (Ne.symm hsame), Option.or_none]
    by_cases hthere : place < items.length
    · rw [List.getElem?_append_left hthere]
    · rw [List.getElem?_eq_none (Nat.not_lt.1 hthere), List.getElem?_eq_none]
      rw [List.length_append, List.length_replicate]
      omega

theorem getElem?_setItem_self (items : List Json) (index : Nat) (value : Json) :
    (setItem items index value)[index]? = some value := by
  rw [getElem?_setItem, if_pos rfl]

theorem setItem_setItem (items : List Json) (index : Nat) (first second : Json) :
    setItem (setItem items index first) index second = setItem items index second := by
  refine List.ext_getElem? fun place ↦ ?_
  simp only [getElem?_setItem]
  split_ifs with hsame hbefore
  · rfl
  · rw [Option.or_assoc, Option.some_or]
  · rw [Option.or_none]

theorem setItem_comm {index other : Nat} (h : index ≠ other) (value inner : Json)
    (items : List Json) :
    setItem (setItem items index value) other inner =
      setItem (setItem items other inner) index value := by
  refine List.ext_getElem? fun place ↦ ?_
  simp only [getElem?_setItem]
  by_cases hindex : place = index
  · have hother : place ≠ other := by
      rintro rfl
      exact h hindex.symm
    rw [if_neg hother, if_pos hindex, if_pos hindex, Option.some_or]
  · by_cases hother : place = other
    · rw [if_pos hother, if_neg hindex, if_pos hother, Option.some_or]
    · rw [if_neg hother, if_neg hindex, if_neg hindex, if_neg hother]
      cases items[place]? with
      | none => split_ifs <;> rfl
      | some item => rfl

/-! ### One step -/

/-- A step from a value into it. -/
inductive Step where
  | key (name : String)
  | item (index : Nat)
  deriving DecidableEq, Repr

/-- Both steps lead into objects, or both into arrays. -/
def Step.IsLike : Step → Step → Prop
  | key _, key _ => True
  | item _, item _ => True
  | _, _ => False

/-- The step leads to an item before that of the other one. -/
def Step.IsBefore : Step → Step → Prop
  | item index, item other => index < other
  | _, _ => False

/-- What a step leads to. -/
def child? (value : Json) : Step → Option Json
  | .key name => (entriesOf value).get? name
  | .item index => (itemsOf (some value))[index]?

/-- A value with something else where a step leads to. A value of the other kind gives way. -/
def setChild (value : Json) : Step → Json → Json
  | .key name, inner => .object ((entriesOf value).insert name inner)
  | .item index, inner => .array (setItem (itemsOf (some value)) index inner)

variable {value inner found : Json} {step other : Step}

theorem Step.IsLike.symm (h : step.IsLike other) : other.IsLike step := by
  cases step <;> cases other <;> exact h

theorem child?_setChild_self (value : Json) (step : Step) (inner : Json) :
    child? (setChild value step inner) step = some inner := by
  cases step with
  | key name => exact Json.Entries.get?_insert_self name inner _
  | item index => exact getElem?_setItem_self _ index inner

/-- Where another step leads to there is what was there before, or a null before the item that was
set. -/
theorem child?_of_child?_setChild (hne : step ≠ other)
    (h : child? (setChild value other inner) step = some found) :
    child? value step = some found ∨ (step.IsBefore other ∧ found = .null) := by
  cases step with
  | key name =>
    cases other with
    | key second =>
      have hname : name ≠ second := fun hsame ↦ hne (congrArg Step.key hsame)
      exact .inl ((Json.Entries.get?_insert_of_ne hname inner _).symm.trans h)
    | item index => cases h
  | item index =>
    cases other with
    | key name => simp [child?, setChild, itemsOf, Json.asArray?] at h
    | item second =>
      have hindex : index ≠ second := fun hsame ↦ hne (congrArg Step.item hsame)
      have hfound := (getElem?_setItem _ second inner index).symm.trans h
      rw [if_neg hindex, Option.or_eq_some_iff] at hfound
      rcases hfound with hthere | ⟨-, hnull⟩
      · exact .inl hthere
      · split_ifs at hnull with hless
        cases hnull
        exact .inr ⟨hless, rfl⟩

/-- Where a step of the same kind leads to nothing goes away. -/
theorem child?_setChild_of_ne (hne : step ≠ other) (hlike : step.IsLike other)
    (h : child? value step = some found) :
    child? (setChild value other inner) step = some found := by
  cases step with
  | key name =>
    cases other with
    | key second =>
      have hname : name ≠ second := fun hsame ↦ hne (congrArg Step.key hsame)
      exact (Json.Entries.get?_insert_of_ne hname inner _).trans h
    | item index => exact hlike.elim
  | item index =>
    cases other with
    | key name => exact hlike.elim
    | item second =>
      have hindex : index ≠ second := fun hsame ↦ hne (congrArg Step.item hsame)
      refine (getElem?_setItem _ second inner index).trans ?_
      have hitem : (itemsOf (some value))[index]? = some found := h
      rw [if_neg hindex, hitem, Option.some_or]

/-- Whether there is null or nothing makes no difference to what is put there. -/
theorem getD_child?_setChild (hne : step ≠ other) (hlike : step.IsLike other) :
    (child? (setChild value other inner) step).getD .null = (child? value step).getD .null := by
  cases hold : child? value step with
  | some found => rw [child?_setChild_of_ne hne hlike hold]
  | none =>
    cases hnew : child? (setChild value other inner) step with
    | none => rfl
    | some found =>
      rcases child?_of_child?_setChild hne hnew with hthere | ⟨-, rfl⟩
      · rw [hold] at hthere
        cases hthere
      · rfl

theorem setChild_setChild (value : Json) (step : Step) (first second : Json) :
    setChild (setChild value step first) step second = setChild value step second := by
  cases step with
  | key name => exact congrArg Json.object (Json.Entries.insert_insert name first second _)
  | item index => exact congrArg Json.array (setItem_setItem _ index first second)

theorem setChild_comm (hne : step ≠ other) (hlike : step.IsLike other) (value first second : Json) :
    setChild (setChild value step first) other second =
      setChild (setChild value other second) step first := by
  cases step with
  | key name =>
    cases other with
    | key key =>
      have hname : name ≠ key := fun hsame ↦ hne (congrArg Step.key hsame)
      exact congrArg Json.object (Json.Entries.insert_comm hname first second _)
    | item index => exact hlike.elim
  | item index =>
    cases other with
    | key name => exact hlike.elim
    | item place =>
      have hindex : index ≠ place := fun hsame ↦ hne (congrArg Step.item hsame)
      exact congrArg Json.array (setItem_comm hindex first second _)

/-! ### Several steps -/

/-- What stands at the end of a path. -/
def at? : List Step → Json → Option Json
  | [], value => some value
  | step :: rest, value => (child? value step).bind (at? rest)

/-- A value with the mark at the end of a path. Where nothing is yet, an object or an array with a
null at the end is filled in. -/
def put (mark : Bool) : List Step → Json → Json
  | [], _ => .bool mark
  | step :: rest, value => setChild value step (put mark rest ((child? value step).getD .null))

variable {mark : Bool} {path second : List Step}

/-- On the way to the mark stands the value that the rest of the path is put into. -/
theorem at?_put_append (mark : Bool) (path rest : List Step) (value : Json) :
    ∃ old, at? path (put mark (path ++ rest) value) = some (put mark rest old) := by
  induction path generalizing value with
  | nil => exact ⟨value, rfl⟩
  | cons step path ih =>
    obtain ⟨old, hold⟩ := ih ((child? value step).getD .null)
    refine ⟨old, ?_⟩
    rw [List.cons_append, put, at?, child?_setChild_self]
    exact hold

theorem at?_put_self (mark : Bool) (path : List Step) (value : Json) :
    at? path (put mark path value) = some (.bool mark) := by
  obtain ⟨old, hold⟩ := at?_put_append mark path [] value
  rwa [List.append_nil] at hold

theorem eq_nil_of_at?_null (h : at? path .null = some found) : path = [] := by
  cases path with
  | nil => rfl
  | cons step rest => cases step <;> cases h

/-- Off the path of a mark stands what stood there before, or a null before an item of the path. -/
theorem at?_of_at?_put (hpath : ¬ path <+: second) (h : at? path (put mark second value) = some found) :
    at? path value = some found ∨
      (found = .null ∧ ∃ front step other, path = front ++ [step] ∧ front ++ [other] <+: second ∧
        step.IsBefore other) := by
  induction second generalizing path value with
  | nil =>
    cases path with
    | nil => exact absurd List.nil_prefix hpath
    | cons step rest => cases step <;> cases h
  | cons second rest ih =>
    cases path with
    | nil => exact absurd List.nil_prefix hpath
    | cons step path =>
      rw [put, at?, Option.bind_eq_some_iff] at h
      obtain ⟨inner, hinner, hfound⟩ := h
      by_cases hsame : step = second
      · subst hsame
        rw [child?_setChild_self] at hinner
        cases hinner
        rw [List.cons_prefix_cons, not_and] at hpath
        rcases ih (hpath rfl) hfound with hold | ⟨hnull, front, last, other, rfl, hfront, hbefore⟩
        · cases hchild : child? value step with
          | some child =>
            rw [hchild, Option.getD_some] at hold
            exact .inl ((congrArg (Option.bind · (at? path)) hchild).trans hold)
          | none =>
            rw [hchild, Option.getD_none] at hold
            rw [eq_nil_of_at?_null hold] at hpath
            exact absurd List.nil_prefix (hpath rfl)
        · exact .inr ⟨hnull, step :: front, last, other, rfl,
            List.cons_prefix_cons.2 ⟨rfl, hfront⟩, hbefore⟩
      · rcases child?_of_child?_setChild hsame hinner with hold | ⟨hbefore, rfl⟩
        · exact .inl ((congrArg (Option.bind · (at? path)) hold).trans hfound)
        · obtain rfl := eq_nil_of_at?_null hfound
          cases hfound
          exact .inr ⟨rfl, [], step, second, rfl,
            List.cons_prefix_cons.2 ⟨rfl, List.nil_prefix⟩, hbefore⟩

/-! ### Marks at two places -/

/-- Neither path starts with the other, and where they first differ their steps are of one kind. -/
structure IsApart (path second : List Step) : Prop where
  not_prefix : ¬ path <+: second
  not_prefix_of : ¬ second <+: path
  isLike_of_ne : ∀ shared step other, shared ++ [step] <+: path → shared ++ [other] <+: second →
    step ≠ other → step.IsLike other

/-- Both paths go the same way up to two different steps of one kind. -/
inductive Forks : List Step → List Step → Prop
  | ahead {step : Step} {path second : List Step} (h : Forks path second) :
    Forks (step :: path) (step :: second)
  | here {step other : Step} {path second : List Step} (hne : step ≠ other)
    (hlike : step.IsLike other) : Forks (step :: path) (other :: second)

theorem IsApart.symm (h : IsApart path second) : IsApart second path :=
  ⟨h.not_prefix_of, h.not_prefix, fun shared step other hstep hother hne ↦
    (h.isLike_of_ne shared other step hother hstep hne.symm).symm⟩

theorem IsApart.tail (h : IsApart (step :: path) (step :: second)) : IsApart path second := by
  refine ⟨fun hprefix ↦ h.not_prefix (List.cons_prefix_cons.2 ⟨rfl, hprefix⟩),
    fun hprefix ↦ h.not_prefix_of (List.cons_prefix_cons.2 ⟨rfl, hprefix⟩),
    fun shared first other hfirst hother ↦ ?_⟩
  exact h.isLike_of_ne (step :: shared) first other (List.cons_prefix_cons.2 ⟨rfl, hfirst⟩)
    (List.cons_prefix_cons.2 ⟨rfl, hother⟩)

theorem IsApart.forks (h : IsApart path second) : Forks path second := by
  induction path generalizing second with
  | nil => exact absurd List.nil_prefix h.not_prefix
  | cons step path ih =>
    cases second with
    | nil => exact absurd List.nil_prefix h.not_prefix_of
    | cons other second =>
      by_cases hsame : step = other
      · subst hsame
        exact .ahead (ih h.tail)
      · exact .here hsame (h.isLike_of_ne [] step other (List.prefix_append [step] path)
          (List.prefix_append [other] second) hsame)

theorem Forks.isApart (h : Forks path second) : IsApart path second := by
  induction h with
  | ahead _ ih =>
    refine ⟨fun hprefix ↦ ih.not_prefix (List.cons_prefix_cons.1 hprefix).2,
      fun hprefix ↦ ih.not_prefix_of (List.cons_prefix_cons.1 hprefix).2,
      fun shared step other hstep hother hne ↦ ?_⟩
    cases shared with
    | nil =>
      obtain ⟨rfl, -⟩ := List.cons_prefix_cons.1 hstep
      obtain ⟨rfl, -⟩ := List.cons_prefix_cons.1 hother
      exact absurd rfl hne
    | cons head shared =>
      exact ih.isLike_of_ne shared step other (List.cons_prefix_cons.1 hstep).2
        (List.cons_prefix_cons.1 hother).2 hne
  | here hne hlike =>
    refine ⟨fun hprefix ↦ hne (List.cons_prefix_cons.1 hprefix).1,
      fun hprefix ↦ hne (List.cons_prefix_cons.1 hprefix).1.symm,
      fun shared step other hstep hother _ ↦ ?_⟩
    cases shared with
    | nil =>
      obtain ⟨rfl, -⟩ := List.cons_prefix_cons.1 hstep
      obtain ⟨rfl, -⟩ := List.cons_prefix_cons.1 hother
      exact hlike
    | cons head shared =>
      obtain ⟨rfl, -⟩ := List.cons_prefix_cons.1 hstep
      exact absurd (List.cons_prefix_cons.1 hother).1 hne

/-- A mark leaves what stands at a place apart from it. -/
theorem at?_put_of_forks (hforks : Forks path second) (h : at? path value = some found) :
    at? path (put mark second value) = some found := by
  induction hforks generalizing value with
  | ahead _ ih =>
    obtain ⟨inner, hinner, hfound⟩ := Option.bind_eq_some_iff.1 h
    rw [put, at?, child?_setChild_self, hinner]
    exact ih hfound
  | here hne hlike =>
    obtain ⟨inner, hinner, hfound⟩ := Option.bind_eq_some_iff.1 h
    rw [put, at?, child?_setChild_of_ne hne hlike hinner]
    exact hfound

/-- Marks at places that are apart can be put in either order. -/
theorem put_comm (hforks : Forks path second) (first last : Bool) (value : Json) :
    put last second (put first path value) = put first path (put last second value) := by
  induction hforks generalizing value with
  | ahead _ ih => simp only [put, child?_setChild_self, Option.getD_some, setChild_setChild, ih]
  | here hne hlike =>
    simp only [put]
    rw [getD_child?_setChild hne.symm hlike.symm, getD_child?_setChild hne hlike,
      setChild_comm hne hlike]

/-! ### Ordered values -/

theorem isOrdered_entriesOf (h : value.IsOrdered) : (Json.object (entriesOf value)).IsOrdered := by
  cases value with
  | object entries => exact h
  | _ => exact Json.isOrdered_object_iff.2 ⟨List.Pairwise.nil, by simp [entriesOf, Json.asObject?]⟩

theorem isOrdered_of_mem_itemsOf (h : value.IsOrdered) :
    ∀ item ∈ itemsOf (some value), item.IsOrdered := by
  cases value with
  | array items => exact Json.isOrdered_array_iff.1 h
  | _ => simp [itemsOf, Json.asArray?]

theorem isOrdered_child? (h : value.IsOrdered) (hfound : child? value step = some found) :
    found.IsOrdered := by
  cases step with
  | key name => exact Json.isOrdered_of_get? (isOrdered_entriesOf h) hfound
  | item index => exact isOrdered_of_mem_itemsOf h found (List.mem_of_getElem? hfound)

theorem isOrdered_setChild (step : Step) (h : value.IsOrdered) (hinner : inner.IsOrdered) :
    (setChild value step inner).IsOrdered := by
  cases step with
  | key name => exact Json.isOrdered_insert name (isOrdered_entriesOf h) hinner
  | item index =>
    refine Json.isOrdered_array_iff.2 fun item hitem ↦ ?_
    rcases List.mem_or_eq_of_mem_set hitem with hthere | rfl
    · rcases List.mem_append.1 hthere with hold | hnull
      · exact isOrdered_of_mem_itemsOf h item hold
      · rw [List.eq_of_mem_replicate hnull]
        trivial
    · exact hinner

theorem isOrdered_put (mark : Bool) (path : List Step) (h : value.IsOrdered) :
    (put mark path value).IsOrdered := by
  induction path generalizing value with
  | nil => trivial
  | cons step rest ih =>
    refine isOrdered_setChild step h (ih ?_)
    cases hchild : child? value step with
    | none => trivial
    | some found => exact isOrdered_child? h hchild

end AirInquiry.FieldChoice
