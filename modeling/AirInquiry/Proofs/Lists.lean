import Mathlib.Data.List.Forall2
import Mathlib.Data.List.Induction
import Mathlib.Tactic.Common

/-!
# Lists that are searched

What is found in a list stands in the order of the list (`forall₂_filter_filterMap`). `firsts` keeps
the items that have no same item in front of them: each kind of item once, at its first place
(`exists_mem_firsts_iff`).
-/

set_option autoImplicit false
set_option relaxedAutoImplicit false

namespace AirInquiry

variable {α β : Type}

/-- What is kept of a list and what is found in it, if something is found in all that is kept and in
nothing else. -/
theorem forall₂_filter_filterMap {related : α → β → Prop} {keep : α → Bool}
    {find : α → Option β} {items : List α}
    (h : ∀ item ∈ items, (keep item = false ∧ find item = none) ∨
      ∃ found, keep item = true ∧ find item = some found ∧ related item found) :
    List.Forall₂ related (items.filter keep) (items.filterMap find) := by
  induction items with
  | nil => exact .nil
  | cons item rest ih =>
    obtain ⟨hitem, hrest⟩ := List.forall_mem_cons.1 h
    rcases hitem with ⟨hkeep, hfind⟩ | ⟨found, hkeep, hfind, hrelated⟩
    · rw [List.filter_cons_of_neg (by rw [hkeep]; decide), List.filterMap_cons_none hfind]
      exact ih hrest
    · rw [List.filter_cons_of_pos hkeep, List.filterMap_cons_some hfind]
      exact .cons hrelated (ih hrest)

/-- Assumes that what is read from a value is written as that value. -/
theorem map_of_mapM_eq_some {read : α → Option β} {write : β → α}
    (h : ∀ {value : α} {found : β}, read value = some found → write found = value)
    {values : List α} {result : List β} (hread : values.mapM read = some result) :
    result.map write = values := by
  induction values generalizing result with
  | nil =>
    cases hread
    rfl
  | cons value rest ih =>
    rw [List.mapM_cons] at hread
    obtain ⟨found, hfound, hread⟩ := Option.bind_eq_some_iff.1 hread
    obtain ⟨others, hothers, hread⟩ := Option.bind_eq_some_iff.1 hread
    cases hread
    rw [List.map_cons, h hfound, ih hothers]

theorem nodup_eraseDups [BEq α] [LawfulBEq α] (items : List α) : items.eraseDups.Nodup := by
  induction hlength : items.length using Nat.strongRecOn generalizing items with
  | ind length ih =>
    cases items with
    | nil => exact List.nodup_nil
    | cons item rest =>
      rw [List.eraseDups_cons, List.nodup_cons, List.mem_eraseDups]
      have hshorter := List.length_filter_le (fun other ↦ !other == item) rest
      rw [List.length_cons] at hlength
      exact ⟨by simp, ih _ (by omega) _ rfl⟩

theorem eraseDups_concat [BEq α] [LawfulBEq α] (items : List α) (item : α) :
    (items ++ [item]).eraseDups =
      if item ∈ items then items.eraseDups else items.eraseDups ++ [item] := by
  rw [List.eraseDups_append]
  by_cases h : item ∈ items <;> simp [List.removeAll, h, List.eraseDups_cons]

/-- Assumes that different items go to different items. -/
theorem eraseDups_map [BEq α] [LawfulBEq α] [BEq β] [LawfulBEq β] {change : α → β}
    (hchange : Function.Injective change) (items : List α) :
    (items.map change).eraseDups = items.eraseDups.map change := by
  induction items using List.reverseRecOn with
  | nil => rfl
  | append_singleton items item ih =>
    rw [List.map_append, List.map_singleton, eraseDups_concat, eraseDups_concat, ih,
      if_congr (List.mem_map_of_injective hchange) rfl rfl]
    split
    · rfl
    · rw [List.map_append, List.map_singleton]

/-! ### First places -/

/-- The items that have no same item in front of them. -/
def firsts (same : α → α → Bool) (items : List α) : List α :=
  (items.zipIdx.filter fun item ↦ !(items.take item.2).any (same · item.1)).map Prod.fst

variable {same : α → α → Bool} {items : List α}

/-- One more item is kept if none of the others is the same. -/
theorem firsts_concat (same : α → α → Bool) (items : List α) (item : α) :
    firsts same (items ++ [item]) =
      firsts same items ++ if items.any (same · item) then [] else [item] := by
  have hfront : (items.zipIdx.filter fun other ↦
      !((items ++ [item]).take other.2).any (same · other.1)) =
      items.zipIdx.filter fun other ↦ !(items.take other.2).any (same · other.1) := by
    refine List.filter_congr fun other hother ↦ ?_
    have hplace := (List.mem_zipIdx' hother).1
    rw [List.take_append_of_le_length (Nat.le_of_lt hplace)]
  rw [firsts, List.zipIdx_append, List.filter_append, List.map_append, hfront, firsts]
  cases hany : items.any (same · item) <;> simp [hany]

theorem mem_of_mem_firsts {item : α} (h : item ∈ firsts same items) : item ∈ items := by
  obtain ⟨⟨found, place⟩, hfound, rfl⟩ := List.mem_map.1 h
  exact List.fst_mem_of_mem_zipIdx (List.mem_filter.1 hfound).1

/-- An item that is left out has a same one in front of it. So where same items have a property in
common, some item that is kept has it if any item has. By induction on the list from its end. -/
theorem exists_mem_firsts_iff {property : α → Prop}
    (h : ∀ {first later}, same first later = true → property later → property first) :
    (∃ item ∈ firsts same items, property item) ↔ ∃ item ∈ items, property item := by
  constructor
  · rintro ⟨item, hitem, hproperty⟩
    exact ⟨item, mem_of_mem_firsts hitem, hproperty⟩
  · induction items using List.reverseRecOn with
    | nil => exact id
    | append_singleton items last ih =>
      rintro ⟨item, hitem, hproperty⟩
      rw [firsts_concat]
      have hearlier : (∃ item ∈ items, property item) →
          ∃ item ∈ firsts same items ++ if items.any (same · last) then [] else [last],
            property item := by
        intro hexists
        obtain ⟨kept, hkept, hproperty⟩ := ih hexists
        exact ⟨kept, List.mem_append_left _ hkept, hproperty⟩
      rcases List.mem_append.1 hitem with hitem | hlast
      · exact hearlier ⟨item, hitem, hproperty⟩
      · rw [List.mem_singleton] at hlast
        rw [hlast] at hproperty
        by_cases hany : items.any (same · last) = true
        · obtain ⟨first, hfirst, hsame⟩ := List.any_eq_true.1 hany
          exact hearlier ⟨first, hfirst, h hsame hproperty⟩
        · rw [if_neg hany]
          exact ⟨last, List.mem_append_right _ (List.mem_singleton_self last), hproperty⟩

theorem firsts_eq_nil_iff : firsts same items = [] ↔ items = [] := by
  have hiff : (∃ item ∈ firsts same items, True) ↔ ∃ item ∈ items, True :=
    exists_mem_firsts_iff fun _ _ ↦ trivial
  simp only [and_true] at hiff
  rw [List.eq_nil_iff_forall_not_mem, List.eq_nil_iff_forall_not_mem, ← not_exists, ← not_exists,
    hiff]

theorem any_firsts (same : α → α → Bool)
    (htrans : ∀ {a b c}, same a b = true → same b c = true → same a c = true) (item : α) :
    (firsts same items).any (same · item) = items.any (same · item) := by
  rw [Bool.eq_iff_iff, List.any_eq_true, List.any_eq_true]
  exact exists_mem_firsts_iff htrans

end AirInquiry
