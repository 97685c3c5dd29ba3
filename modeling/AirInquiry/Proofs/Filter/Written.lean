import AirInquiry.Filter.Basic
import Mathlib.Tactic.Common

/-!
# What is read of a written filter

A filter is written as a JSON value, and the conditions of what is written stand in it below any
number of groups and negations (`written`). The first form that reads is taken, and whatever stands
in the same object next to it is passed over (`passedOver`).

What is written is the leaves of the filter and what is passed over, nothing more and nothing less
(`accounts_ofJson?`). So every written condition is a valid one and a leaf of the filter exactly if
this holds of the conditions that are passed over, and it always holds where no object mixes forms
(`written_isLeaf_iff`). An object that mixes them loses conditions, even invalid ones
(`not_isLeaf_mixed`).
-/

set_option autoImplicit false
set_option relaxedAutoImplicit false

namespace AirInquiry.Filter

/-! ### Conditions of a written filter -/

/-- The keys of a group. -/
def groupKeys : List String := andKeys ++ orKeys

/-- The keys of groups and negations. -/
def connectives : List String := groupKeys ++ notKeys

/-- Whether an object is written as a condition: it names a field, or has no other form either. -/
def statesCondition (entries : List (String × Json)) : Bool :=
  entries.any (fun entry ↦ entry.1 = "field") ||
    !entries.any fun entry ↦ connectives.contains entry.1

/-- The object itself, if it is written as a condition. -/
def ownCondition (entries : List (String × Json)) : List Json :=
  if statesCondition entries then [.object entries] else []

mutual

/-- The values that are written as conditions in a filter, below any number of groups and negations.
-/
def written : Json → List Json
  | .object entries => ownCondition entries ++ writtenIn [] entries
  | other => [other]
termination_by structural value => value

/-- The values that are written as conditions in the items of a group. What is no list of items
counts itself. -/
def writtenInGroup : Json → List Json
  | .array items => writtenInItems items
  | other => [other]
termination_by structural value => value

/-- The values that are written as conditions in items. -/
def writtenInItems : List Json → List Json
  | [] => []
  | item :: rest => written item ++ writtenInItems rest
termination_by structural items => items

/-- The values that are written as conditions in the groups and negations of an object, but for
those under the given keys. -/
def writtenIn (keys : List String) : List (String × Json) → List Json
  | [] => []
  | (key, value) :: rest =>
    if keys.contains key then writtenIn keys rest
    else if groupKeys.contains key then writtenInGroup value ++ writtenIn keys rest
    else if notKeys.contains key then written value ++ writtenIn keys rest
    else writtenIn keys rest
termination_by structural entries => entries

end

mutual

/-- The values that are written as conditions and passed over when a filter is read. -/
def passedOver : Json → List Json
  | .object entries =>
    if (groupOf andKeys entries).value?.isSome then
      ownCondition entries ++ writtenIn andKeys entries ++ passedOverUnder andKeys entries
    else if (groupOf orKeys entries).value?.isSome then
      ownCondition entries ++ writtenIn orKeys entries ++ passedOverUnder orKeys entries
    else if (negatedOf entries).value?.isSome then
      ownCondition entries ++ writtenIn notKeys entries ++ passedOverUnder notKeys entries
    else writtenIn [] entries
  | _ => []
termination_by structural value => value

/-- What is passed over in a group. -/
def passedOverInGroup : Json → List Json
  | .array items => passedOverInItems items
  | _ => []
termination_by structural value => value

/-- What is passed over in items. -/
def passedOverInItems : List Json → List Json
  | [] => []
  | item :: rest => passedOver item ++ passedOverInItems rest
termination_by structural items => items

/-- What is passed over in the groups and negations of an object that stand under the given keys. -/
def passedOverUnder (keys : List String) : List (String × Json) → List Json
  | [] => []
  | (key, value) :: rest =>
    if keys.contains key then
      (if groupKeys.contains key then passedOverInGroup value else passedOver value) ++
        passedOverUnder keys rest
    else passedOverUnder keys rest
termination_by structural entries => entries

end

mutual

/-- The conditions of a filter, in order. -/
def leaves : Filter → List Condition
  | .and items => leavesOfItems items
  | .or items => leavesOfItems items
  | .not item => leaves item
  | .leaf condition => [condition]
termination_by structural filter => filter

/-- The conditions of items, in order. -/
def leavesOfItems : List Filter → List Condition
  | [] => []
  | item :: rest => leaves item ++ leavesOfItems rest
termination_by structural items => items

end

/-- What is written is a valid condition and a leaf of the filter. -/
def IsLeafOf (filter : Filter) (part : Json) : Prop :=
  ∃ condition ∈ filter.leaves, Condition.ofJson part = .ok condition

/-! ### Parts, leaves and what is passed over -/

/-- The parts are, up to their order, those that read as the leaves and those that are passed over.
-/
def Accounts (parts passed : List Json) (leaves : List Condition) : Prop :=
  ∃ kept : List Json, kept.map Condition.ofJson = leaves.map .ok ∧ parts.Perm (kept ++ passed)

namespace Accounts

variable {parts passed others more : List Json} {leaves further : List Condition}

theorem nil : Accounts [] [] [] := ⟨[], rfl, .refl _⟩

theorem leaf {part : Json} {condition : Condition} (h : Condition.ofJson part = .ok condition) :
    Accounts [part] [] [condition] :=
  ⟨[part], by rw [List.map_singleton, h, List.map_singleton], .refl _⟩

theorem append (h : Accounts parts passed leaves) (hmore : Accounts others more further) :
    Accounts (parts ++ others) (passed ++ more) (leaves ++ further) := by
  obtain ⟨kept, hkept, hparts⟩ := h
  obtain ⟨kept', hkept', hothers⟩ := hmore
  refine ⟨kept ++ kept', by rw [List.map_append, List.map_append, hkept, hkept'], ?_⟩
  refine (hparts.append hothers).trans ?_
  rw [List.append_assoc, List.append_assoc]
  refine List.Perm.append_left kept ?_
  rw [← List.append_assoc, ← List.append_assoc]
  exact List.perm_append_comm.append_right more

/-- Parts that are passed over in front of the others. -/
theorem pass (h : Accounts parts passed leaves) (more : List Json) :
    Accounts (more ++ parts) (more ++ passed) leaves := by
  obtain ⟨kept, hkept, hparts⟩ := h
  refine ⟨kept, hkept, (hparts.append_left more).trans ?_⟩
  rw [← List.append_assoc, ← List.append_assoc]
  exact List.perm_append_comm.append_right passed

theorem perm (h : Accounts parts passed leaves) (hparts : others.Perm parts)
    (hpassed : passed.Perm more) : Accounts others more leaves := by
  obtain ⟨kept, hkept, hperm⟩ := h
  exact ⟨kept, hkept, (hparts.trans hperm).trans (hpassed.append_left kept)⟩

end Accounts

/-! ### Entries of an object -/

section Entries

variable {keys : List String} {key : String} {value : Json} {rest entries : List (String × Json)}

theorem writtenIn_cons_group (h : keys.contains key = false)
    (hgroup : groupKeys.contains key = true) :
    writtenIn keys ((key, value) :: rest) = writtenInGroup value ++ writtenIn keys rest := by
  rw [writtenIn, if_neg (by rw [h]; decide), if_pos hgroup]

theorem groupKeys_of_notKeys (h : notKeys.contains key = true) :
    groupKeys.contains key = false := by
  have hall : ∀ one ∈ notKeys, groupKeys.contains one = false := by decide
  exact hall key (List.contains_iff_mem.1 h)

theorem writtenIn_cons_not (h : keys.contains key = false) (hnot : notKeys.contains key = true) :
    writtenIn keys ((key, value) :: rest) = written value ++ writtenIn keys rest := by
  rw [writtenIn, if_neg (by rw [h]; decide), if_neg (by rw [groupKeys_of_notKeys hnot]; decide),
    if_pos hnot]

/-- What is written in an entry does not depend on the keys that are left out, as long as its own is
not among them. -/
theorem exists_writtenIn_cons (key : String) (value : Json) : ∃ own, ∀ keys rest,
    keys.contains key = false →
      writtenIn keys ((key, value) :: rest) = own ++ writtenIn keys rest := by
  by_cases hgroup : groupKeys.contains key = true
  · exact ⟨_, fun keys rest h ↦ writtenIn_cons_group h hgroup⟩
  · by_cases hnot : notKeys.contains key = true
    · exact ⟨_, fun keys rest h ↦ writtenIn_cons_not h hnot⟩
    · refine ⟨[], fun keys rest h ↦ ?_⟩
      rw [writtenIn, if_neg (by rw [h]; decide), if_neg hgroup, if_neg hnot, List.nil_append]

/-- Keys that do not occur leave nothing out. -/
theorem writtenIn_eq (h : ∀ entry ∈ entries, keys.contains entry.1 = false) :
    writtenIn keys entries = writtenIn [] entries := by
  induction entries with
  | nil => rfl
  | cons entry rest ih =>
    obtain ⟨key, value⟩ := entry
    obtain ⟨hkey, hrest⟩ := List.forall_mem_cons.1 h
    obtain ⟨own, hown⟩ := exists_writtenIn_cons key value
    rw [hown keys rest hkey, hown [] rest rfl, ih hrest]

theorem passedOverUnder_eq_nil (h : ∀ entry ∈ entries, keys.contains entry.1 = false) :
    passedOverUnder keys entries = [] := by
  induction entries with
  | nil => rfl
  | cons entry rest ih =>
    obtain ⟨hkey, hrest⟩ := List.forall_mem_cons.1 h
    rw [passedOverUnder, if_neg (by rw [hkey]; decide), ih hrest]

theorem Reading.before_eq_present {α : Type} {one : Option α} {others : Reading α} {result : α}
    (h : Reading.before one others = .present result) : one = some result ∧ others = .absent := by
  unfold Reading.before at h
  split at h
  · cases h
    exact ⟨rfl, rfl⟩
  · cases h

theorem Reading.before_ne_absent {α : Type} (one : Option α) (others : Reading α) :
    Reading.before one others ≠ .absent := by
  unfold Reading.before
  split <;> simp

/-- What the entries of an object say about a form with the given keys, when its values are read so.
-/
def readingOf {α : Type} (read : Json → Option α) (keys : List String) :
    List (String × Json) → Reading α
  | [] => .absent
  | (key, value) :: rest =>
    if keys.contains key then .before (read value) (readingOf read keys rest)
    else readingOf read keys rest

theorem groupOf_eq_readingOf (keys : List String) (entries : List (String × Json)) :
    groupOf keys entries = readingOf itemsOf? keys entries := by
  induction entries with
  | nil => rfl
  | cons entry rest ih => rw [groupOf, readingOf, ih]

theorem negatedOf_eq_readingOf (entries : List (String × Json)) :
    negatedOf entries = readingOf ofJson? notKeys entries := by
  induction entries with
  | nil => rfl
  | cons entry rest ih => rw [negatedOf, readingOf, ih]

variable {α : Type} {read : Json → Option α}

theorem contains_of_absent (h : readingOf read keys entries = .absent) :
    ∀ entry ∈ entries, keys.contains entry.1 = false := by
  induction entries with
  | nil => exact List.forall_mem_nil _
  | cons entry rest ih =>
    obtain ⟨key, value⟩ := entry
    rw [readingOf] at h
    split at h
    · exact absurd h (Reading.before_ne_absent _ _)
    · next hkey => exact List.forall_mem_cons.2 ⟨Bool.eq_false_iff.2 hkey, ih h⟩

theorem exists_key_of_present {result : α} (h : readingOf read keys entries = .present result) :
    ∃ entry ∈ entries, entry.1 ∈ keys := by
  induction entries with
  | nil => cases h
  | cons entry rest ih =>
    obtain ⟨key, value⟩ := entry
    rw [readingOf] at h
    split at h
    · next hkey => exact ⟨_, .head _, List.contains_iff_mem.1 hkey⟩
    · obtain ⟨other, hother, hkey⟩ := ih h
      exact ⟨other, .tail _ hother, hkey⟩

end Entries

/-! ### Conditions name a field -/

theorem exists_of_bind_eq_ok {ε α β : Type} {first : Except ε α} {next : α → Except ε β}
    {result : β} (h : first >>= next = .ok result) :
    ∃ value, first = .ok value ∧ next value = .ok result := by
  cases first with
  | error error => cases h
  | ok value => exact ⟨value, rfl, h⟩

/-- Only an entry with the key of the field changes the field. -/
theorem field_of_ofEntries {entries : List (String × Json)} {draft result : Condition.Draft}
    (hnone : ∀ entry ∈ entries, entry.1 ≠ "field")
    (h : Condition.ofEntries draft entries = .ok result) : result.field = draft.field := by
  induction entries generalizing draft with
  | nil =>
    cases h
    rfl
  | cons entry rest ih =>
    obtain ⟨key, value⟩ := entry
    obtain ⟨hkey, hrest⟩ := List.forall_mem_cons.1 hnone
    unfold Condition.ofEntries at h
    split at h
    · exact absurd rfl hkey
    · obtain ⟨operator, -, hnext⟩ := exists_of_bind_eq_ok h
      have hfield := ih hrest hnext
      exact hfield
    · have hfield := ih hrest h
      exact hfield
    · dsimp only at h
      split at h
      · obtain ⟨inner, -, hnext⟩ := exists_of_bind_eq_ok h
        have hfield := ih hrest hnext
        exact hfield
      · obtain ⟨inner, -, hnext⟩ := exists_of_bind_eq_ok h
        have hfield := ih hrest hnext
        exact hfield
    · exact ih hrest h

/-- An object that reads as a condition names a field. -/
theorem any_field_of_ofJson {entries : List (String × Json)} {condition : Condition}
    (h : Condition.ofJson (.object entries) = .ok condition) :
    entries.any (fun entry ↦ entry.1 = "field") = true := by
  rw [Condition.ofJson] at h
  obtain ⟨draft, hdraft, hfinish⟩ := exists_of_bind_eq_ok h
  by_contra hnone
  have hfield : draft.field = none := by
    refine field_of_ofEntries (fun entry hentry hkey ↦ hnone ?_) hdraft
    exact List.any_eq_true.2 ⟨entry, hentry, decide_eq_true hkey⟩
  rw [if_pos (by rw [hfield]; rfl)] at hfinish
  cases hfinish

theorem ownCondition_of_ofJson {entries : List (String × Json)} {condition : Condition}
    (h : Condition.ofJson (.object entries) = .ok condition) :
    ownCondition entries = [.object entries] := by
  rw [ownCondition, statesCondition, any_field_of_ofJson h, Bool.true_or, if_pos rfl]

/-! ### What is written is read or passed over -/

theorem Reading.eq_present_of_value? {α : Type} {reading : Reading α} {value : α}
    (h : reading.value? = some value) : reading = .present value := by
  cases reading with
  | present found =>
    cases h
    rfl
  | absent => cases h
  | broken => cases h

theorem exists_of_leaf {value : Json} {filter : Filter}
    (h : (Condition.ofJson value).toOption.map leaf = some filter) :
    ∃ condition, Condition.ofJson value = .ok condition ∧ filter = .leaf condition := by
  obtain ⟨condition, hcondition, rfl⟩ := Option.map_eq_some_iff.1 h
  refine ⟨condition, ?_, rfl⟩
  generalize Condition.ofJson value = result at hcondition ⊢
  cases result with
  | error error => cases hcondition
  | ok found =>
    cases hcondition
    rfl

/-- A value that reads as a condition. -/
theorem accounts_leaf {value : Json} {filter : Filter}
    (h : (Condition.ofJson value).toOption.map leaf = some filter) :
    Accounts [value] [] filter.leaves := by
  obtain ⟨condition, hcondition, rfl⟩ := exists_of_leaf h
  exact .leaf hcondition

mutual

/-- What is written as a filter is its leaves and what is passed over. By recursion on the value. -/
theorem accounts_ofJson? : ∀ {value : Json} {filter : Filter}, ofJson? value = some filter →
    Accounts (written value) (passedOver value) filter.leaves
  | .object entries, filter, h => by
    rw [ofJson?] at h
    rw [written, passedOver]
    split at h
    · next items hitems =>
      cases h
      rw [hitems, Option.isSome_some, if_pos rfl, List.append_assoc]
      exact (accounts_groupOf andKeys (by decide) (Reading.eq_present_of_value? hitems)).pass _
    · next hand =>
      rw [hand, Option.isSome_none, if_neg (by decide)]
      split at h
      · next items hitems =>
        cases h
        rw [hitems, Option.isSome_some, if_pos rfl, List.append_assoc]
        exact (accounts_groupOf orKeys (by decide) (Reading.eq_present_of_value? hitems)).pass _
      · next hor =>
        rw [hor, Option.isSome_none, if_neg (by decide)]
        split at h
        · next item hitem =>
          cases h
          rw [hitem, Option.isSome_some, if_pos rfl, List.append_assoc]
          exact (accounts_negatedOf (Reading.eq_present_of_value? hitem)).pass _
        · next hnot =>
          rw [hnot, Option.isSome_none, if_neg (by decide)]
          obtain ⟨condition, hcondition, rfl⟩ := exists_of_leaf h
          rw [ownCondition_of_ofJson hcondition]
          have hleaf := (Accounts.leaf hcondition).pass (writtenIn [] entries)
          rw [List.append_nil] at hleaf
          exact hleaf.perm List.perm_append_comm (.refl _)
  | .null, _, h => accounts_leaf h
  | .bool _, _, h => accounts_leaf h
  | .number _, _, h => accounts_leaf h
  | .string _, _, h => accounts_leaf h
  | .array _, _, h => accounts_leaf h

theorem accounts_itemsOf? : ∀ {value : Json} {items : List Filter}, itemsOf? value = some items →
    Accounts (writtenInGroup value) (passedOverInGroup value) (leavesOfItems items)
  | .array _, _, h => accounts_allOf? h

theorem accounts_allOf? : ∀ {values : List Json} {items : List Filter},
    allOf? values = some items →
    Accounts (writtenInItems values) (passedOverInItems values) (leavesOfItems items)
  | [], items, h => by
    cases h
    exact .nil
  | value :: rest, items, h => by
    rw [allOf?] at h
    split at h
    · next item others hitem hothers =>
      cases h
      exact (accounts_ofJson? hitem).append (accounts_allOf? hothers)
    · cases h

theorem accounts_groupOf (keys : List String) (hkeys : ∀ key ∈ keys, key ∈ groupKeys) :
    ∀ {entries : List (String × Json)} {items : List Filter},
      groupOf keys entries = .present items →
      Accounts (writtenIn [] entries) (writtenIn keys entries ++ passedOverUnder keys entries)
        (leavesOfItems items)
  | [], items, h => by cases h
  | (key, value) :: rest, items, h => by
    rw [groupOf] at h
    split at h
    · next hkey =>
      obtain ⟨hvalue, habsent⟩ := Reading.before_eq_present h
      rw [groupOf_eq_readingOf] at habsent
      have hrest := contains_of_absent habsent
      have hgroup : groupKeys.contains key = true := by
        rw [List.contains_iff_mem] at hkey ⊢
        exact hkeys key hkey
      rw [writtenIn_cons_group rfl hgroup, writtenIn, if_pos hkey, writtenIn_eq hrest,
        passedOverUnder, if_pos hkey, if_pos hgroup, passedOverUnder_eq_nil hrest, List.append_nil]
      exact ((accounts_itemsOf? hvalue).pass _).perm List.perm_append_comm (.refl _)
    · next hkey =>
      have hnot := Bool.eq_false_iff.2 hkey
      obtain ⟨own, hown⟩ := exists_writtenIn_cons key value
      rw [hown [] rest rfl, hown keys rest hnot, passedOverUnder, if_neg hkey, List.append_assoc]
      exact (accounts_groupOf keys hkeys h).pass own

theorem accounts_negatedOf : ∀ {entries : List (String × Json)} {item : Filter},
    negatedOf entries = .present item →
      Accounts (writtenIn [] entries) (writtenIn notKeys entries ++ passedOverUnder notKeys entries)
        item.leaves
  | [], item, h => by cases h
  | (key, value) :: rest, item, h => by
    rw [negatedOf] at h
    split at h
    · next hkey =>
      obtain ⟨hvalue, habsent⟩ := Reading.before_eq_present h
      rw [negatedOf_eq_readingOf] at habsent
      have hrest := contains_of_absent habsent
      rw [writtenIn_cons_not rfl hkey, writtenIn, if_pos hkey, writtenIn_eq hrest,
        passedOverUnder, if_pos hkey, if_neg (by rw [groupKeys_of_notKeys hkey]; decide),
        passedOverUnder_eq_nil hrest, List.append_nil]
      exact ((accounts_ofJson? hvalue).pass _).perm List.perm_append_comm (.refl _)
    · next hkey =>
      have hnot := Bool.eq_false_iff.2 hkey
      obtain ⟨own, hown⟩ := exists_writtenIn_cons key value
      rw [hown [] rest rfl, hown notKeys rest hnot, passedOverUnder, if_neg hkey,
        List.append_assoc]
      exact (accounts_negatedOf h).pass own

end

/-! ### Objects that state one form -/

/-- Whether a key tells what an object states: a group, a negation, or a condition on a field. -/
def isFormKey (key : String) : Bool := connectives.contains key || key = "field"

/-- Whether all keys of an object that tell what it states are the same. -/
def statesOneForm (entries : List (String × Json)) : Bool :=
  entries.all fun one ↦ entries.all fun other ↦
    !(isFormKey one.1 && isFormKey other.1) || one.1 = other.1

mutual

/-- Whether no object of a written filter mixes forms. -/
def isUnmixed : Json → Bool
  | .object entries => statesOneForm entries && isUnmixedIn entries
  | _ => true
termination_by structural value => value

/-- `isUnmixed` for the items of a group. -/
def isUnmixedGroup : Json → Bool
  | .array items => areUnmixed items
  | _ => true
termination_by structural value => value

/-- `isUnmixed` for every item. -/
def areUnmixed : List Json → Bool
  | [] => true
  | item :: rest => isUnmixed item && areUnmixed rest
termination_by structural items => items

/-- `isUnmixed` in the groups and negations of an object. -/
def isUnmixedIn : List (String × Json) → Bool
  | [] => true
  | (key, value) :: rest =>
    if groupKeys.contains key then isUnmixedGroup value && isUnmixedIn rest
    else if notKeys.contains key then isUnmixed value && isUnmixedIn rest
    else isUnmixedIn rest
termination_by structural entries => entries

end

section OneForm

variable {entries : List (String × Json)} {keys : List String}

theorem eq_of_statesOneForm (h : statesOneForm entries = true) {one other : String × Json}
    (hone : one ∈ entries) (hother : other ∈ entries) (hkey : isFormKey one.1 = true)
    (hotherKey : isFormKey other.1 = true) : one.1 = other.1 := by
  have hpair := List.all_eq_true.1 (List.all_eq_true.1 h one hone) other hother
  rw [hkey, hotherKey] at hpair
  exact of_decide_eq_true hpair

theorem isFormKey_of_mem {key : String} (h : key ∈ connectives) : isFormKey key = true := by
  rw [isFormKey, List.contains_iff_mem.2 h, Bool.true_or]

/-- Nothing is written in entries other than those left out, if they are no groups or negations. -/
theorem writtenIn_eq_nil (h : ∀ entry ∈ entries, entry.1 ∈ connectives → entry.1 ∈ keys) :
    writtenIn keys entries = [] := by
  induction entries with
  | nil => rfl
  | cons entry rest ih =>
    obtain ⟨key, value⟩ := entry
    obtain ⟨hkey, hrest⟩ := List.forall_mem_cons.1 h
    rw [writtenIn]
    split_ifs with hkeys hgroup hnot
    · exact ih hrest
    · have hmem : key ∈ connectives := List.mem_append_left _ (List.contains_iff_mem.1 hgroup)
      exact absurd (List.contains_iff_mem.2 (hkey hmem)) hkeys
    · have hmem : key ∈ connectives := List.mem_append_right _ (List.contains_iff_mem.1 hnot)
      exact absurd (List.contains_iff_mem.2 (hkey hmem)) hkeys
    · exact ih hrest

/-- Next to a group or a negation nothing is written in an object that states one form. -/
theorem nothing_beside (hone : statesOneForm entries = true) {entry : String × Json}
    (hentry : entry ∈ entries) (hkey : entry.1 ∈ keys) (hkeys : ∀ key ∈ keys, key ∈ connectives) :
    ownCondition entries = [] ∧ writtenIn keys entries = [] := by
  have hform := isFormKey_of_mem (hkeys _ hkey)
  constructor
  · have hfield : entries.any (fun other ↦ other.1 = "field") = false := by
      rw [List.any_eq_false]
      intro other hother hname
      have hname := of_decide_eq_true hname
      have heq := eq_of_statesOneForm hone hentry hother hform (by rw [hname]; decide)
      have hmem := hkeys _ hkey
      rw [heq, hname] at hmem
      exact absurd hmem (by decide)
    have hany : entries.any (fun other ↦ connectives.contains other.1) = true :=
      List.any_eq_true.2 ⟨entry, hentry, List.contains_iff_mem.2 (hkeys _ hkey)⟩
    rw [ownCondition, statesCondition, hfield, hany, if_neg (by decide)]
  · refine writtenIn_eq_nil fun other hother hconnective ↦ ?_
    rwa [← eq_of_statesOneForm hone hentry hother hform (isFormKey_of_mem hconnective)]

/-- Next to a field nothing is written in an object that states one form. -/
theorem writtenIn_eq_nil_of_field (hone : statesOneForm entries = true)
    (h : entries.any (fun entry ↦ entry.1 = "field") = true) : writtenIn [] entries = [] := by
  obtain ⟨entry, hentry, hname⟩ := List.any_eq_true.1 h
  have hname := of_decide_eq_true hname
  refine writtenIn_eq_nil fun other hother hconnective ↦ ?_
  have heq := eq_of_statesOneForm hone hentry hother (by rw [hname]; decide)
    (isFormKey_of_mem hconnective)
  rw [← heq, hname] at hconnective
  exact absurd hconnective (by decide)

theorem isUnmixedIn_tail {entry : String × Json} (h : isUnmixedIn (entry :: entries) = true) :
    isUnmixedIn entries = true := by
  obtain ⟨key, value⟩ := entry
  rw [isUnmixedIn] at h
  split_ifs at h
  · exact (Bool.and_eq_true_iff.1 h).2
  · exact (Bool.and_eq_true_iff.1 h).2
  · exact h

end OneForm

mutual

/-- Nothing is passed over where no object mixes forms. By recursion on the value. -/
theorem passedOver_eq_nil : ∀ {value : Json} {filter : Filter}, ofJson? value = some filter →
    isUnmixed value = true → passedOver value = []
  | .object entries, filter, h, hunmixed => by
    rw [isUnmixed, Bool.and_eq_true] at hunmixed
    obtain ⟨hone, hentries⟩ := hunmixed
    rw [ofJson?] at h
    rw [passedOver]
    split at h
    · next items hitems =>
      have hpresent := Reading.eq_present_of_value? hitems
      obtain ⟨entry, hentry, hkey⟩ :=
        exists_key_of_present ((groupOf_eq_readingOf _ _).symm.trans hpresent)
      obtain ⟨hown, hrest⟩ := nothing_beside hone hentry hkey (by decide)
      rw [hitems, Option.isSome_some, if_pos rfl, hown, hrest,
        passedOverUnder_of_groupOf andKeys (by decide) hpresent hentries]
      rfl
    · next hand =>
      rw [hand, Option.isSome_none, if_neg (by decide)]
      split at h
      · next items hitems =>
        have hpresent := Reading.eq_present_of_value? hitems
        obtain ⟨entry, hentry, hkey⟩ :=
          exists_key_of_present ((groupOf_eq_readingOf _ _).symm.trans hpresent)
        obtain ⟨hown, hrest⟩ := nothing_beside hone hentry hkey (by decide)
        rw [hitems, Option.isSome_some, if_pos rfl, hown, hrest,
          passedOverUnder_of_groupOf orKeys (by decide) hpresent hentries]
        rfl
      · next hor =>
        rw [hor, Option.isSome_none, if_neg (by decide)]
        split at h
        · next item hitem =>
          have hpresent := Reading.eq_present_of_value? hitem
          obtain ⟨entry, hentry, hkey⟩ :=
            exists_key_of_present ((negatedOf_eq_readingOf _).symm.trans hpresent)
          obtain ⟨hown, hrest⟩ := nothing_beside hone hentry hkey (by decide)
          rw [hitem, Option.isSome_some, if_pos rfl, hown, hrest,
            passedOverUnder_of_negatedOf hpresent hentries]
          rfl
        · next hnot =>
          rw [hnot, Option.isSome_none, if_neg (by decide)]
          obtain ⟨condition, hcondition, -⟩ := exists_of_leaf h
          exact writtenIn_eq_nil_of_field hone (any_field_of_ofJson hcondition)
  | .null, _, _, _ => rfl
  | .bool _, _, _, _ => rfl
  | .number _, _, _, _ => rfl
  | .string _, _, _, _ => rfl
  | .array _, _, _, _ => rfl

theorem passedOverInGroup_of_itemsOf? : ∀ {value : Json} {items : List Filter},
    itemsOf? value = some items → isUnmixedGroup value = true → passedOverInGroup value = []
  | .array _, _, h, hunmixed => passedOverInItems_of_allOf? h hunmixed

theorem passedOverInItems_of_allOf? : ∀ {values : List Json} {items : List Filter},
    allOf? values = some items → areUnmixed values = true → passedOverInItems values = []
  | [], _, _, _ => rfl
  | value :: rest, items, h, hunmixed => by
    rw [areUnmixed, Bool.and_eq_true] at hunmixed
    rw [allOf?] at h
    split at h
    · next item others hitem hothers =>
      rw [passedOverInItems, passedOver_eq_nil hitem hunmixed.1,
        passedOverInItems_of_allOf? hothers hunmixed.2, List.append_nil]
    · cases h

theorem passedOverUnder_of_groupOf (keys : List String) (hkeys : ∀ key ∈ keys, key ∈ groupKeys) :
    ∀ {entries : List (String × Json)} {items : List Filter},
      groupOf keys entries = .present items → isUnmixedIn entries = true →
        passedOverUnder keys entries = []
  | [], _, _, _ => rfl
  | (key, value) :: rest, items, h, hunmixed => by
    rw [groupOf] at h
    split at h
    · next hkey =>
      obtain ⟨hvalue, habsent⟩ := Reading.before_eq_present h
      have hgroup := List.contains_iff_mem.2 (hkeys key (List.contains_iff_mem.1 hkey))
      rw [isUnmixedIn, if_pos hgroup, Bool.and_eq_true] at hunmixed
      rw [groupOf_eq_readingOf] at habsent
      rw [passedOverUnder, if_pos hkey, if_pos hgroup,
        passedOverInGroup_of_itemsOf? hvalue hunmixed.1,
        passedOverUnder_eq_nil (contains_of_absent habsent), List.append_nil]
    · next hkey =>
      rw [passedOverUnder, if_neg hkey]
      exact passedOverUnder_of_groupOf keys hkeys h (isUnmixedIn_tail hunmixed)

theorem passedOverUnder_of_negatedOf : ∀ {entries : List (String × Json)} {item : Filter},
    negatedOf entries = .present item → isUnmixedIn entries = true →
      passedOverUnder notKeys entries = []
  | [], _, _, _ => rfl
  | (key, value) :: rest, item, h, hunmixed => by
    rw [negatedOf] at h
    split at h
    · next hkey =>
      obtain ⟨hvalue, habsent⟩ := Reading.before_eq_present h
      have hgroup : ¬ groupKeys.contains key = true := by
        rw [groupKeys_of_notKeys hkey]
        decide
      rw [isUnmixedIn, if_neg hgroup, if_pos hkey, Bool.and_eq_true] at hunmixed
      rw [negatedOf_eq_readingOf] at habsent
      rw [passedOverUnder, if_pos hkey, if_neg hgroup, passedOver_eq_nil hvalue hunmixed.1,
        passedOverUnder_eq_nil (contains_of_absent habsent), List.append_nil]
    · next hkey =>
      rw [passedOverUnder, if_neg hkey]
      exact passedOverUnder_of_negatedOf h (isUnmixedIn_tail hunmixed)

end

/-! ### Which written conditions are leaves -/

theorem ofJson?_of_ofJson {value : Json} {filter : Filter} (h : ofJson value = .ok filter) :
    ofJson? value = some filter := by
  unfold ofJson at h
  split at h
  · next found hfound =>
    cases h
    exact hfound
  · cases h

/-- What is written in a filter that reads is, up to its order, what reads as its leaves and what is
passed over. So all written conditions are valid and leaves of the filter exactly if those are that
are passed over, and nothing is passed over where no object mixes forms. -/
theorem written_isLeaf_iff {value : Json} {filter : Filter} (h : ofJson value = .ok filter) :
    (∃ kept : List Json, kept.map Condition.ofJson = filter.leaves.map .ok ∧
      (written value).Perm (kept ++ passedOver value)) ∧
    ((∀ part ∈ written value, IsLeafOf filter part) ↔
      ∀ part ∈ passedOver value, IsLeafOf filter part) ∧
    (isUnmixed value = true →
      passedOver value = [] ∧ ∀ part ∈ written value, IsLeafOf filter part) := by
  have hread := ofJson?_of_ofJson h
  obtain ⟨kept, hkept, hparts⟩ := accounts_ofJson? hread
  have hleaf : ∀ part ∈ kept, IsLeafOf filter part := by
    intro part hpart
    have hmem := List.mem_map_of_mem (f := Condition.ofJson) hpart
    rw [hkept] at hmem
    obtain ⟨condition, hcondition, heq⟩ := List.mem_map.1 hmem
    exact ⟨condition, hcondition, heq.symm⟩
  have hiff : (∀ part ∈ written value, IsLeafOf filter part) ↔
      ∀ part ∈ passedOver value, IsLeafOf filter part := by
    constructor
    · intro hall part hpart
      exact hall part (hparts.mem_iff.2 (List.mem_append_right _ hpart))
    · intro hpassed part hpart
      rcases List.mem_append.1 (hparts.mem_iff.1 hpart) with hmem | hmem
      · exact hleaf part hmem
      · exact hpassed part hmem
  refine ⟨⟨kept, hkept, hparts⟩, hiff, fun hunmixed ↦ ?_⟩
  have hnothing := passedOver_eq_nil hread hunmixed
  refine ⟨hnothing, hiff.2 ?_⟩
  rw [hnothing]
  exact List.forall_mem_nil _

/-- A condition with an operator and a whole number. -/
def conditionJson (field operator : String) (operand : Int) : Json :=
  .object [("field", .string field), ("op", .string operator),
    ("value", .number (.integer operand))]

/-- Bad air, but not early in the morning or late at night. -/
def daytimeJson : Json :=
  .object [("_and", .array [conditionJson "aqi_value" "_gt" 100,
    .object [("_not", .object [("_or", .array [conditionJson "hour" "_lt" 6,
      conditionJson "hour" "gte" 22])])]])]

/-- All three conditions are leaves. -/
theorem written_isLeaf_iff_daytime :
    ∃ filter, ofJson daytimeJson = .ok filter ∧ isUnmixed daytimeJson = true ∧
      (written daytimeJson).length = 3 ∧
      ∀ part ∈ written daytimeJson, IsLeafOf filter part := by
  have hunmixed : isUnmixed daytimeJson = true := by decide +kernel
  have hread : (ofJson? daytimeJson).isSome = true := by decide +kernel
  obtain ⟨filter, hfilter⟩ := Option.isSome_iff_exists.1 hread
  have hok : ofJson daytimeJson = .ok filter := by rw [ofJson, hfilter]
  exact ⟨filter, hok, hunmixed, by decide +kernel, ((written_isLeaf_iff hok).2.2 hunmixed).2⟩

/-- A group of which the only condition is a range without bounds, in one object with a condition on
the hour. -/
def mixedJson : Json :=
  .object [("_and", .array [conditionJson "aqi_value" "_between" 7]), ("field", .string "hour"),
    ("op", .string "_eq"), ("value", .number (.integer 8))]

/-- The mixed object reads as the condition on the hour. The range is no condition, and it is lost.
-/
theorem not_isLeaf_mixed :
    ∃ filter, ofJson mixedJson = .ok filter ∧
      ¬ ∀ part ∈ written mixedJson, IsLeafOf filter part := by
  have hread : (ofJson? mixedJson).isSome = true := by decide +kernel
  obtain ⟨filter, hfilter⟩ := Option.isSome_iff_exists.1 hread
  refine ⟨filter, by rw [ofJson, hfilter], fun hall ↦ ?_⟩
  have hparts : written mixedJson = [mixedJson, conditionJson "aqi_value" "_between" 7] := by rfl
  have hwritten : conditionJson "aqi_value" "_between" 7 ∈ written mixedJson := by
    rw [hparts]
    exact .tail _ (.head _)
  obtain ⟨condition, -, hcondition⟩ := hall _ hwritten
  have hbroken : (Condition.ofJson (conditionJson "aqi_value" "_between" 7)).toOption.isNone =
      true := by decide +kernel
  rw [hcondition] at hbroken
  cases hbroken

end AirInquiry.Filter
