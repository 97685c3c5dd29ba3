import AirInquiry.Json.Basic
import Mathlib.Data.List.Nodup
import Mathlib.Tactic.SplitIfs

/-!
# Entries of an object

What is found under a key after a value has been put under it (`get?_insert_self`,
`get?_insert_of_ne`). Putting entries in order adds none (`mem_of_mem_ofList`).
-/

set_option autoImplicit false
set_option relaxedAutoImplicit false

namespace AirInquiry.Json.Entries

theorem get?_cons_self (key : String) (value : Json) (entries : Entries) :
    get? ((key, value) :: entries) key = some value := by
  rw [get?, List.find?_cons_of_pos (by simp), Option.map_some]

theorem get?_cons_of_ne {key other : String} (h : key ≠ other) (value : Json)
    (entries : Entries) : get? ((other, value) :: entries) key = entries.get? key := by
  rw [get?, List.find?_cons_of_neg (by simpa using h.symm), get?]

theorem get?_insert_self (key : String) (value : Json) (entries : Entries) :
    (entries.insert key value).get? key = some value := by
  induction entries with
  | nil => exact get?_cons_self key value []
  | cons entry rest ih =>
    obtain ⟨other, old⟩ := entry
    rw [insert]
    split_ifs with hless hsame
    · exact get?_cons_self key value _
    · exact get?_cons_self key value rest
    · rw [get?_cons_of_ne hsame, ih]

theorem get?_insert_of_ne {key other : String} (h : key ≠ other) (value : Json)
    (entries : Entries) : (entries.insert other value).get? key = entries.get? key := by
  induction entries with
  | nil => exact get?_cons_of_ne h value []
  | cons entry rest ih =>
    obtain ⟨first, old⟩ := entry
    rw [insert]
    split_ifs with hless hsame
    · exact get?_cons_of_ne h value _
    · subst hsame
      rw [get?_cons_of_ne h, get?_cons_of_ne h]
    · by_cases hfirst : key = first
      · subst hfirst
        rw [get?_cons_self, get?_cons_self]
      · rw [get?_cons_of_ne hfirst, get?_cons_of_ne hfirst, ih]

theorem insert_cons_of_lt {key other : String} (h : key < other) (old value : Json)
    (entries : Entries) :
    insert key value ((other, old) :: entries) = (key, value) :: (other, old) :: entries := by
  rw [insert, if_pos h]

theorem insert_cons_self (key : String) (old value : Json) (entries : Entries) :
    insert key value ((key, old) :: entries) = (key, value) :: entries := by
  rw [insert, if_neg (String.lt_irrefl key), if_pos rfl]

/-- Of two values put under one key the second one stays. -/
theorem insert_insert (key : String) (first second : Json) (entries : Entries) :
    (entries.insert key first).insert key second = entries.insert key second := by
  induction entries with
  | nil => exact insert_cons_self key first second []
  | cons entry rest ih =>
    obtain ⟨other, old⟩ := entry
    by_cases hless : key < other
    · rw [insert_cons_of_lt hless, insert_cons_self, insert_cons_of_lt hless]
    · by_cases hsame : key = other
      · subst hsame
        rw [insert_cons_self, insert_cons_self, insert_cons_self]
      · simp only [insert, if_neg hless, if_neg hsame, ih]

theorem mem_of_get? {key : String} {value : Json} {entries : Entries}
    (h : entries.get? key = some value) : (key, value) ∈ entries := by
  obtain ⟨entry, hfind, rfl⟩ := Option.map_eq_some_iff.1 h
  have hkey : entry.1 = key := by simpa using List.find?_some hfind
  rw [← hkey]
  exact List.mem_of_find?_eq_some hfind

theorem mem_of_mem_insert {entry : String × Json} {key : String} {value : Json}
    {entries : Entries} (h : entry ∈ entries.insert key value) :
    entry = (key, value) ∨ entry ∈ entries := by
  induction entries with
  | nil => exact .inl (List.mem_singleton.1 h)
  | cons first rest ih =>
    obtain ⟨other, old⟩ := first
    rw [insert] at h
    split_ifs at h with hless hsame
    · exact List.mem_cons.1 h
    · exact (List.mem_cons.1 h).imp_right (List.mem_cons_of_mem _)
    · rcases List.mem_cons.1 h with rfl | hrest
      · exact .inr (.head _)
      · exact (ih hrest).imp_right (List.mem_cons_of_mem _)

theorem mem_or_mem_of_mem_union {entry : String × Json} {older newer : Entries}
    (h : entry ∈ older.union newer) : entry ∈ older ∨ entry ∈ newer := by
  induction newer generalizing older with
  | nil => exact .inl h
  | cons first rest ih =>
    rcases ih h with hinsert | hrest
    · rcases mem_of_mem_insert hinsert with rfl | holder
      · exact .inr (.head _)
      · exact .inl holder
    · exact .inr (.tail _ hrest)

theorem mem_of_mem_ofList {entry : String × Json} {entries : List (String × Json)}
    (h : entry ∈ ofList entries) : entry ∈ entries :=
  (mem_or_mem_of_mem_union h).resolve_left List.not_mem_nil

end AirInquiry.Json.Entries
