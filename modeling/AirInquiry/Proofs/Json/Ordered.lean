import AirInquiry.Proofs.Json.Entries
import Mathlib.Data.String.Basic

/-!
# Objects with increasing keys

Putting a value under a key and uniting two objects keep the keys increasing (`isSorted_insert`,
`isSorted_union`) and the values ordered (`isOrdered_insert`, `isOrdered_union`). What a union holds
under a key is what the newer object holds there, or else what the older one does (`get?_union`).
-/

set_option autoImplicit false
set_option relaxedAutoImplicit false

namespace AirInquiry.Json

namespace Entries

variable {key table : String} {value : Json} {entries older newer : Entries}

theorem get?_eq_none_iff : entries.get? key = none ↔ key ∉ entries.map Prod.fst := by
  rw [get?, Option.map_eq_none_iff, List.find?_eq_none, List.mem_map, not_exists]
  refine forall_congr' fun entry ↦ ?_
  rw [not_and, decide_eq_true_eq]

theorem mem_keys_iff : key ∈ entries.map Prod.fst ↔ (entries.get? key).isSome = true := by
  rw [Option.isSome_iff_ne_none, ne_eq, get?_eq_none_iff, not_not]

theorem isSorted_cons {entry : String × Json} : IsSorted (entry :: entries) ↔
    (∀ other ∈ entries, entry.1 < other.1) ∧ entries.IsSorted := by
  rw [IsSorted, List.map_cons, List.pairwise_cons, List.forall_mem_map]
  rfl

theorem get?_eq_none_of_isSorted_cons (h : IsSorted ((key, value) :: entries)) :
    entries.get? key = none := by
  rw [get?_eq_none_iff]
  intro hmem
  obtain ⟨entry, hentry, hkey⟩ := List.mem_map.1 hmem
  have hless : key < entry.1 := (isSorted_cons.1 h).1 entry hentry
  rw [hkey] at hless
  exact lt_irrefl key hless

theorem get?_cons_of_isSorted {old : Json} (h : IsSorted ((key, value) :: entries))
    (hold : entries.get? table = some old) : get? ((key, value) :: entries) table = some old := by
  have hother : table ≠ key := by
    rintro rfl
    rw [get?_eq_none_of_isSorted_cons h] at hold
    cases hold
  rw [get?_cons_of_ne hother, hold]

theorem isSorted_insert (key : String) (value : Json) (h : entries.IsSorted) :
    (entries.insert key value).IsSorted := by
  induction entries with
  | nil => exact List.pairwise_singleton _ _
  | cons first rest ih =>
    obtain ⟨other, old⟩ := first
    obtain ⟨hfirst, hrest⟩ := isSorted_cons.1 h
    rw [insert]
    split_ifs with hless hsame
    · refine isSorted_cons.2 ⟨fun entry hentry ↦ ?_, h⟩
      rcases List.mem_cons.1 hentry with rfl | hmem
      · exact hless
      · exact hless.trans (hfirst entry hmem)
    · subst hsame
      exact isSorted_cons.2 ⟨hfirst, hrest⟩
    · refine isSorted_cons.2 ⟨fun entry hentry ↦ ?_, ih hrest⟩
      rcases mem_of_mem_insert hentry with rfl | hmem
      · exact lt_of_le_of_ne (not_lt.1 hless) (Ne.symm hsame)
      · exact hfirst entry hmem

theorem insert_cons_of_gt {other : String} (h : other < key) (old value : Json)
    (entries : Entries) :
    insert key value ((other, old) :: entries) = (other, old) :: insert key value entries := by
  rw [insert, if_neg (not_lt.2 h.le), if_neg h.ne']

theorem insert_comm_of_lt {other : String} (h : key < other) (value inner : Json)
    (entries : Entries) :
    (entries.insert key value).insert other inner =
      (entries.insert other inner).insert key value := by
  induction entries with
  | nil => rw [insert, insert, insert_cons_of_gt h, insert, insert_cons_of_lt h]
  | cons entry rest ih =>
    obtain ⟨first, old⟩ := entry
    rcases lt_trichotomy key first with hless | rfl | hgreater
    · rw [insert_cons_of_lt hless, insert_cons_of_gt h]
      rcases lt_trichotomy other first with hother | rfl | hother
      · rw [insert_cons_of_lt hother, insert_cons_of_lt h]
      · rw [insert_cons_self, insert_cons_of_lt h]
      · rw [insert_cons_of_gt hother, insert_cons_of_lt hless]
    · rw [insert_cons_self, insert_cons_of_gt h, insert_cons_of_gt h, insert_cons_self]
    · rw [insert_cons_of_gt hgreater, insert_cons_of_gt (hgreater.trans h), ih,
        insert_cons_of_gt (hgreater.trans h), insert_cons_of_gt hgreater]

/-- Values can be put under different keys in either order. -/
theorem insert_comm {other : String} (h : key ≠ other) (value inner : Json)
    (entries : Entries) :
    (entries.insert key value).insert other inner =
      (entries.insert other inner).insert key value := by
  rcases lt_or_gt_of_ne h with hless | hgreater
  · exact insert_comm_of_lt hless value inner entries
  · exact (insert_comm_of_lt hgreater inner value entries).symm

theorem isSorted_union (newer : Entries) (h : older.IsSorted) : (older.union newer).IsSorted := by
  induction newer generalizing older with
  | nil => exact h
  | cons entry rest ih => exact ih (isSorted_insert entry.1 entry.2 h)

theorem get?_insert (key other : String) (value : Json) (entries : Entries) :
    (entries.insert other value).get? key =
      if key = other then some value else entries.get? key := by
  split_ifs with hsame
  · rw [hsame, get?_insert_self]
  · exact get?_insert_of_ne hsame value entries

theorem get?_union (key : String) (older : Entries) (h : newer.IsSorted) :
    (older.union newer).get? key = (newer.get? key).or (older.get? key) := by
  induction newer generalizing older with
  | nil => rfl
  | cons entry rest ih =>
    obtain ⟨other, value⟩ := entry
    have hstep : (older.union ((other, value) :: rest)).get? key =
        ((older.insert other value).union rest).get? key := rfl
    rw [hstep, ih _ (isSorted_cons.1 h).2, get?_insert]
    split_ifs with hsame
    · subst hsame
      rw [get?_eq_none_of_isSorted_cons h, get?_cons_self, Option.none_or, Option.some_or]
    · rw [get?_cons_of_ne hsame]

end Entries

/-! ### Values -/

instance : DecidablePred Entries.IsSorted := fun entries ↦
  inferInstanceAs (Decidable ((entries.map Prod.fst).Pairwise (· < ·)))

mutual

/-- Decides whether a value is ordered. -/
def decideOrdered : (value : Json) → Decidable value.IsOrdered
  | .null => .isTrue trivial
  | .bool _ => .isTrue trivial
  | .number _ => .isTrue trivial
  | .string _ => .isTrue trivial
  | .array items => decideItemsOrdered items
  | .object entries =>
    haveI := decideEntriesOrdered entries
    inferInstanceAs (Decidable (Entries.IsSorted entries ∧ EntriesOrdered entries))
termination_by structural value => value

/-- Decides whether all items are ordered. -/
def decideItemsOrdered : (items : List Json) → Decidable (ItemsOrdered items)
  | [] => .isTrue trivial
  | item :: rest =>
    haveI := decideOrdered item
    haveI := decideItemsOrdered rest
    inferInstanceAs (Decidable (item.IsOrdered ∧ ItemsOrdered rest))
termination_by structural items => items

/-- Decides whether the values of all entries are ordered. -/
def decideEntriesOrdered : (entries : List (String × Json)) → Decidable (EntriesOrdered entries)
  | [] => .isTrue trivial
  | (_, value) :: rest =>
    haveI := decideOrdered value
    haveI := decideEntriesOrdered rest
    inferInstanceAs (Decidable (value.IsOrdered ∧ EntriesOrdered rest))
termination_by structural entries => entries

end

instance : DecidablePred IsOrdered := decideOrdered

theorem itemsOrdered_iff {items : List Json} :
    ItemsOrdered items ↔ ∀ item ∈ items, item.IsOrdered := by
  induction items with
  | nil => simp [ItemsOrdered]
  | cons first rest ih => simp [ItemsOrdered, ih]

theorem entriesOrdered_iff {entries : Entries} :
    EntriesOrdered entries ↔ ∀ entry ∈ entries, entry.2.IsOrdered := by
  induction entries with
  | nil => simp [EntriesOrdered]
  | cons first rest ih => simp [EntriesOrdered, ih]

theorem isOrdered_array_iff {items : List Json} :
    (array items).IsOrdered ↔ ∀ item ∈ items, item.IsOrdered := by
  rw [IsOrdered, itemsOrdered_iff]

theorem isOrdered_object_iff {entries : Entries} :
    (object entries).IsOrdered ↔ entries.IsSorted ∧ ∀ entry ∈ entries, entry.2.IsOrdered := by
  rw [IsOrdered, entriesOrdered_iff]

theorem isOrdered_of_get? {entries : Entries} {key : String} {value : Json}
    (h : (object entries).IsOrdered) (hvalue : entries.get? key = some value) :
    value.IsOrdered :=
  (isOrdered_object_iff.1 h).2 _ (Entries.mem_of_get? hvalue)

theorem isOrdered_insert {entries : Entries} {value : Json} (key : String)
    (hentries : (object entries).IsOrdered) (hvalue : value.IsOrdered) :
    (object (entries.insert key value)).IsOrdered := by
  obtain ⟨hsorted, hvalues⟩ := isOrdered_object_iff.1 hentries
  refine isOrdered_object_iff.2 ⟨Entries.isSorted_insert key value hsorted, fun entry hentry ↦ ?_⟩
  rcases Entries.mem_of_mem_insert hentry with rfl | hmem
  · exact hvalue
  · exact hvalues entry hmem

theorem isOrdered_union {older newer : Entries} (holder : (object older).IsOrdered)
    (hnewer : (object newer).IsOrdered) : (object (older.union newer)).IsOrdered := by
  obtain ⟨hsorted, hvalues⟩ := isOrdered_object_iff.1 holder
  refine isOrdered_object_iff.2 ⟨Entries.isSorted_union newer hsorted, fun entry hentry ↦ ?_⟩
  rcases Entries.mem_or_mem_of_mem_union hentry with hmem | hmem
  · exact hvalues entry hmem
  · exact (isOrdered_object_iff.1 hnewer).2 entry hmem

end AirInquiry.Json
