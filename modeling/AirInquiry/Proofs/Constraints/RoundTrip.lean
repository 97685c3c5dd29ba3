import AirInquiry.Constraints.Basic
import AirInquiry.Proofs.Filter.RoundTrip
import AirInquiry.Proofs.Filter.Written
import AirInquiry.Proofs.GraphQL.Name
import AirInquiry.Proofs.Text.Pieces
import Mathlib.Data.List.Find

/-!
# Constraints read back as they are written

Sort keys and whole constraints read back from what is written for them, as do the filters and
conditions inside them (`wireFormat_roundTrip`). So reading and writing again settles at once:
whatever aliases, defaults and empty forms a value used, what is written for it is written again
without a change (`rewrite_bind_rewrite`).

Constraints are made again from their parts while they are read. A limit and an offset are words, so
they pass the tests of their ranges (`Constraints.make_eq_ok_iff`), and a filter without empty
groups has nothing left to prune (`Filter.prune_eq_self`).
-/

set_option autoImplicit false
set_option relaxedAutoImplicit false

namespace AirInquiry

open GraphQL (Name)
open Json (Mismatch)

/-! ### Sort keys -/

namespace SortKey

theorem ofJson_direction (direction : Direction) :
    Direction.ofJson (.string direction.text) = .ok direction := by
  cases direction <;> rfl

theorem ofJson_nullPlace (place : NullPlace) :
    NullPlace.ofJson (.string place.text) = .ok place := by
  cases place <;> rfl

/-- The path of a sort key is cut at its points into the names that it was joined from. -/
theorem split_field (item : SortKey) : Text.split '.' item.field = item.path.map Name.text := by
  have hpoint : ∀ piece ∈ item.path.map Name.text, '.' ∉ piece.toList := by
    intro piece hpiece
    obtain ⟨name, -, rfl⟩ := List.mem_map.1 hpiece
    exact GraphQL.notMem_of_isName name.isName (by decide)
  exact Text.split_join hpoint

theorem mapM_split_field (item : SortKey) :
    (Text.split '.' item.field).mapM Name.ofString? = some item.path := by
  rw [split_field]
  exact mapM_map_written Name.ofString?_text item.path

theorem make_field (item : SortKey) :
    make item.field item.direction item.nulls = .ok item := by
  rw [make, mapM_split_field]
  rfl

theorem optional_nullPlace (place : NullPlace) :
    Json.Decode.optional NullPlace.ofJson (.string place.text) = .ok (some place) := by
  rw [Json.Decode.optional, ofJson_nullPlace]
  · rfl
  · exact nofun

theorem ofJson_toJson (item : SortKey) : ofJson item.toJson = .ok item := by
  have hmake := make_field item
  have hrecord : Json.Decode.record "RawOrderItem" recordFields {} item.toJson =
      .ok ⟨item.field, item.direction, item.nulls⟩ := by
    rw [toJson, Json.Decode.record]
    cases item.nulls with
    | none =>
      simp [Json.Decode.ofEntries, Json.Decode.entryInto, recordFields,
        Json.Decode.Field.isCalled, nullsEntry, ofJson_direction, Json.Decode.string, bind,
        Except.bind, Except.map, pure, Except.pure]
    | some place =>
      simp [Json.Decode.ofEntries, Json.Decode.entryInto, recordFields,
        Json.Decode.Field.isCalled, nullsEntry, ofJson_direction, optional_nullPlace,
        Json.Decode.string, bind, Except.bind, Except.map, pure, Except.pure]
  rw [ofJson, hrecord]
  simp only [bind, Except.bind, hmake]
  rfl

end SortKey

/-! ### Pruned filters -/

namespace Filter

mutual

/-- Nothing is pruned where no group is empty. By recursion on the filter. -/
theorem prune_eq_self : ∀ {filter : Filter}, filter.IsPruned → filter.prune = some filter
  | .and items, h => by
    rw [IsPruned] at h
    rw [prune, pruneItems_eq_self h.2, List.isEmpty_eq_false_iff.2 h.1, if_neg (by decide)]
  | .or items, h => by
    rw [IsPruned] at h
    rw [prune, pruneItems_eq_self h.2, List.isEmpty_eq_false_iff.2 h.1, if_neg (by decide)]
  | .not item, h => by
    rw [IsPruned] at h
    rw [prune, prune_eq_self h, Option.map_some]
  | .leaf condition, _ => rfl

theorem pruneItems_eq_self : ∀ {items : List Filter}, ItemsPruned items → pruneItems items = items
  | [], _ => rfl
  | item :: rest, h => by
    rw [ItemsPruned] at h
    rw [pruneItems, prune_eq_self h.1, pruneItems_eq_self h.2]

end

end Filter

/-! ### Constraints -/

namespace Constraints

theorem limitOf_eq_ok_iff {value : Int} {word : { count : UInt32 // 0 < count }} :
    limitOf value = .ok word ↔ (word.1.toNat : Int) = value := by
  obtain ⟨count, hpos⟩ := word
  have hlow := UInt32.lt_iff_toNat_lt.1 hpos
  have hhigh := count.toNat_lt_size
  have hzero : (0 : UInt32).toNat = 0 := rfl
  constructor
  · intro h
    simp only [limitOf] at h
    split at h
    · next hrange =>
      cases h
      rw [UInt32.toNat_ofNat_of_lt' (by omega)]
      omega
    · cases h
  · rintro rfl
    have hword : UInt32.ofNat (count.toNat : Int).toNat = count := by simp
    simp only [limitOf, hword]
    rw [dif_pos ⟨by omega, by omega, hpos⟩]

theorem offsetOf_eq_ok_iff {value : Int} {count : UInt32} :
    offsetOf value = .ok count ↔ (count.toNat : Int) = value := by
  have hhigh := count.toNat_lt_size
  constructor
  · intro h
    rw [offsetOf] at h
    split at h
    · next hrange =>
      cases h
      rw [UInt32.toNat_ofNat_of_lt' (by omega)]
      omega
    · cases h
  · rintro rfl
    have hword : UInt32.ofNat (count.toNat : Int).toNat = count := by simp
    rw [offsetOf, hword, if_pos (by omega)]

/-- Assumes that a value is read as exactly the word that is equal to it. -/
theorem mapM_eq_ok_iff {α : Type} {read : Int → Except Refusal α} {toInt : α → Int}
    (h : ∀ {value : Int} {word : α}, read value = .ok word ↔ toInt word = value)
    {value : Option Int} {word : Option α} :
    value.mapM read = .ok word ↔ word.map toInt = value := by
  cases value with
  | none => cases word <;> simp [Option.mapM_none, pure, Except.pure]
  | some value =>
    cases word with
    | none => cases hread : read value <;> simp [Option.mapM_some, hread, Functor.map, Except.map]
    | some word =>
      rw [Option.map_some, Option.some.injEq, ← h]
      cases hread : read value <;> simp [Option.mapM_some, hread, Functor.map, Except.map]

/-- Constraints are made of what is left of the filter, of the sort keys, and of the words that are
equal to the limit and the offset. -/
theorem make_eq_ok_iff {filter : Option Filter} {sortKeys : List SortKey}
    {limit offset : Option Int} {constraints : Constraints} :
    make filter sortKeys limit offset = .ok constraints ↔
      constraints.filter = filter.bind Filter.prune ∧ constraints.sortKeys = sortKeys ∧
        (constraints.limit.map fun count ↦ (count.toNat : Int)) = limit ∧
        (constraints.offset.map fun count ↦ (count.toNat : Int)) = offset := by
  constructor
  · intro h
    obtain ⟨limitWord, hlimit, h⟩ := Filter.exists_of_bind_eq_ok h
    obtain ⟨offsetWord, hoffset, h⟩ := Filter.exists_of_bind_eq_ok h
    cases h
    refine ⟨rfl, rfl, ?_, (mapM_eq_ok_iff offsetOf_eq_ok_iff).1 hoffset⟩
    rw [← (mapM_eq_ok_iff limitOf_eq_ok_iff).1 hlimit, Option.map_map]
    rfl
  · obtain ⟨kept, keys, count, skipped, _, hpos⟩ := constraints
    rintro ⟨hfilter, hkeys, hlimit, hoffset⟩
    have hwords : (count.pmap Subtype.mk hpos).map Subtype.val = count := by
      cases count <;> rfl
    have hreadLimit : limit.mapM limitOf = .ok (count.pmap Subtype.mk hpos) := by
      refine (mapM_eq_ok_iff limitOf_eq_ok_iff).2 ?_
      rw [← hlimit]
      cases count <;> rfl
    have hreadOffset := (mapM_eq_ok_iff offsetOf_eq_ok_iff).2 hoffset
    simp only [make, hreadLimit, hreadOffset, bind, Except.bind, hwords, ← hfilter, ← hkeys]

/-- Constraints are what is made from their own parts. -/
theorem make_parts (constraints : Constraints) :
    make constraints.filter constraints.sortKeys (constraints.limit.map fun count ↦ count.toNat)
        (constraints.offset.map fun count ↦ count.toNat) = .ok constraints := by
  have hprune : constraints.filter.bind Filter.prune = constraints.filter := by
    cases hfilter : constraints.filter with
    | none => rfl
    | some filter => exact Filter.prune_eq_self (constraints.filter_isPruned filter hfilter)
  exact make_eq_ok_iff.2 ⟨hprune.symm, rfl, rfl, rfl⟩

/-- Reading the entry of an optional part, which may be missing, where `put` is the record with that
part. The names that have been seen afterwards are those seen before and perhaps the one of the
entry. -/
theorem foldlM_entryOf {α : Type} (key : String) (toJson : α → Json) (put : Option α → Draft)
    (value : Option α) {read : Json → Draft → Except Mismatch Draft} {seen : List String}
    (hfind : recordFields.find? (·.isCalled key) = some ⟨key, [], false, read⟩)
    (hseen : key ∉ seen)
    (hread : ∀ present, read (toJson present) (put none) = .ok (put (some present))) :
    ∃ after, (entryOf key toJson value).foldlM (Json.Decode.entryInto recordFields)
        (put none, seen) = .ok (put value, after) ∧ ∀ name ∈ after, name = key ∨ name ∈ seen := by
  cases value with
  | none => exact ⟨seen, rfl, fun name ↦ Or.inr⟩
  | some present =>
    refine ⟨key :: seen, ?_, fun name ↦ List.mem_cons.1⟩
    simp [entryOf, Json.Decode.entryInto, hfind, hseen, hread, Except.map, bind, Except.bind, pure,
      Except.pure]

theorem optional_word (count : UInt32) :
    Json.Decode.optional Json.Decode.integer (Json.ofNat count.toNat) =
      .ok (some (count.toNat : Int)) := by
  have hlow : -(Nat.pow 2 63 : Int) ≤ count.toNat :=
    Int.le_trans (Int.neg_nonpos_of_nonneg (Int.natCast_nonneg _)) (Int.natCast_nonneg _)
  have hhigh : (count.toNat : Int) < Nat.pow 2 63 :=
    Int.ofNat_lt.2 (Nat.lt_trans count.toNat_lt_size (by decide))
  have hpresent : Json.Decode.optional Json.Decode.integer (Json.ofNat count.toNat) =
      (Json.Decode.integer (Json.ofNat count.toNat)).map some := rfl
  rw [hpresent, Json.ofNat, Json.ofInt, Json.Decode.integer, if_pos ⟨hlow, hhigh⟩]
  rfl

theorem optional_sortKeys (items : List SortKey) :
    Json.Decode.optional (Json.Decode.list SortKey.ofJson) (.array (items.map SortKey.toJson)) =
      .ok (some items) := by
  have hitems : (items.map SortKey.toJson).mapM SortKey.ofJson = .ok items :=
    mapM_map_written SortKey.ofJson_toJson items
  have hpresent : Json.Decode.optional (Json.Decode.list SortKey.ofJson)
      (.array (items.map SortKey.toJson)) =
        ((items.map SortKey.toJson).mapM SortKey.ofJson).map some := rfl
  rw [hpresent, hitems]
  rfl

theorem presentOperand_toJson (filter : Filter) :
    Comparison.presentOperand (some filter.toJson) = some filter.toJson := by
  cases filter with
  | leaf condition => cases condition <;> rfl
  | _ => rfl

/-- The entries are in the order of their keys, and each adds its own part to those before it. -/
theorem foldlM_entries (limit offset : Option UInt32) (keys : Option (List SortKey))
    (filter : Option Filter) :
    ∃ seen, (entryOf "limit" (fun count : UInt32 ↦ Json.ofNat count.toNat) limit ++
        entryOf "offset" (fun count : UInt32 ↦ Json.ofNat count.toNat) offset ++
        entryOf "order_by" (fun items : List SortKey ↦ .array (items.map SortKey.toJson)) keys ++
        entryOf "where" Filter.toJson filter).foldlM (Json.Decode.entryInto recordFields) ({}, []) =
      .ok (⟨filter.map Filter.toJson, keys, limit.map fun count ↦ count.toNat,
        offset.map fun count ↦ count.toNat⟩, seen) := by
  obtain ⟨_, hlimit, hseenLimit⟩ := foldlM_entryOf "limit"
    (fun count : UInt32 ↦ Json.ofNat count.toNat)
    (fun limit ↦ ⟨none, none, limit.map fun count ↦ count.toNat, none⟩) limit rfl
    List.not_mem_nil fun count ↦ by
      rw [optional_word]
      rfl
  obtain ⟨_, hoffset, hseenOffset⟩ := foldlM_entryOf "offset"
    (fun count : UInt32 ↦ Json.ofNat count.toNat)
    (fun offset ↦ ⟨none, none, limit.map fun count ↦ count.toNat,
      offset.map fun count ↦ count.toNat⟩) offset rfl
    (fun h ↦ by simpa using hseenLimit _ h) fun count ↦ by
      rw [optional_word]
      rfl
  obtain ⟨_, hkeys, hseenKeys⟩ := foldlM_entryOf "order_by"
    (fun items : List SortKey ↦ .array (items.map SortKey.toJson))
    (fun keys ↦ ⟨none, keys, limit.map fun count ↦ count.toNat,
      offset.map fun count ↦ count.toNat⟩) keys rfl
    (fun h ↦ by simpa using (hseenOffset _ h).imp_right (hseenLimit _)) fun items ↦ by
      rw [optional_sortKeys]
      rfl
  obtain ⟨seen, hfilter, -⟩ := foldlM_entryOf "where" Filter.toJson
    (fun filter ↦ ⟨filter.map Filter.toJson, keys, limit.map fun count ↦ count.toNat,
      offset.map fun count ↦ count.toNat⟩) filter rfl
    (fun h ↦ by simpa using (hseenKeys _ h).imp_right fun h ↦
      (hseenOffset _ h).imp_right (hseenLimit _)) fun filter ↦ by
      rw [presentOperand_toJson]
      rfl
  refine ⟨seen, ?_⟩
  rw [List.foldlM_append, List.foldlM_append, List.foldlM_append]
  simp only [Option.map_none] at hlimit hoffset hfilter
  simp only [bind, Except.bind, hlimit, hoffset, hkeys, hfilter]

/-- The parts of written constraints. -/
theorem record_toJson (constraints : Constraints) :
    Json.Decode.record "RawQueryConstraints" recordFields {} constraints.toJson =
      .ok ⟨constraints.filter.map Filter.toJson, constraints.presentSortKeys?,
        constraints.limit.map fun count ↦ count.toNat,
        constraints.offset.map fun count ↦ count.toNat⟩ := by
  obtain ⟨seen, hentries⟩ := foldlM_entries constraints.limit constraints.offset
    constraints.presentSortKeys? constraints.filter
  rw [toJson, Json.Decode.record, Json.Decode.ofEntries, hentries]
  rfl

theorem filterOf_toJson (filter : Filter) : filterOf (some filter.toJson) = .ok (some filter) := by
  have hentries : filter.toJson ≠ .object [] := by
    cases filter with
    | leaf condition => cases condition <;> exact nofun
    | _ => exact nofun
  have hread := Filter.ofJson_toJson filter
  rw [filterOf]
  · rw [hread]
  · exact hentries

theorem ofJson_toJson (constraints : Constraints) :
    ofJson constraints.toJson = .ok constraints := by
  have hfilter : filterOf (constraints.filter.map Filter.toJson) = .ok constraints.filter := by
    cases constraints.filter with
    | none => rfl
    | some filter => exact filterOf_toJson filter
  have hkeys : constraints.presentSortKeys?.getD [] = constraints.sortKeys := by
    rw [presentSortKeys?]
    by_cases hempty : constraints.sortKeys.isEmpty
    · rw [if_pos hempty, List.isEmpty_iff.1 hempty]
      rfl
    · rw [if_neg hempty]
      rfl
  have hmake := make_parts constraints
  rw [ofJson, record_toJson]
  simp only [bind, Except.bind, Draft.finish, hfilter, hkeys, hmake]
  rfl

end Constraints

/-! ### Reading and writing again -/

/-- Reads a value and writes what was read. -/
def rewrite {α : Type} (read : Json → Except Mismatch α) (write : α → Json) (value : Json) :
    Except Mismatch Json :=
  (read value).map write

/-- Assumes that everything is read back from what is written for it. -/
theorem rewrite_bind_rewrite {α : Type} {read : Json → Except Mismatch α} {write : α → Json}
    (h : ∀ value, read (write value) = .ok value) (value : Json) :
    rewrite read write value >>= rewrite read write = rewrite read write value := by
  rw [rewrite]
  cases read value with
  | error mismatch => rfl
  | ok found =>
    change rewrite read write (write found) = .ok (write found)
    rw [rewrite, h]
    rfl

/-- Every condition, filter, sort key and constraints is read back from what is written for it, and
reading and writing is idempotent on every value, whether or not the value is read at all. -/
theorem wireFormat_roundTrip :
    ((∀ condition : Condition, Condition.ofJson condition.toJson = .ok condition) ∧
      (∀ filter : Filter, Filter.ofJson filter.toJson = .ok filter) ∧
      (∀ item : SortKey, SortKey.ofJson item.toJson = .ok item) ∧
      (∀ constraints : Constraints, Constraints.ofJson constraints.toJson = .ok constraints)) ∧
    ∀ value : Json,
      (rewrite Condition.ofJson Condition.toJson value >>=
          rewrite Condition.ofJson Condition.toJson =
        rewrite Condition.ofJson Condition.toJson value) ∧
      (rewrite Filter.ofJson Filter.toJson value >>= rewrite Filter.ofJson Filter.toJson =
        rewrite Filter.ofJson Filter.toJson value) ∧
      (rewrite SortKey.ofJson SortKey.toJson value >>= rewrite SortKey.ofJson SortKey.toJson =
        rewrite SortKey.ofJson SortKey.toJson value) ∧
      (rewrite Constraints.ofJson Constraints.toJson value >>=
          rewrite Constraints.ofJson Constraints.toJson =
        rewrite Constraints.ofJson Constraints.toJson value) := by
  refine ⟨⟨Condition.ofJson_toJson, Filter.ofJson_toJson, SortKey.ofJson_toJson,
    Constraints.ofJson_toJson⟩, fun value ↦ ⟨?_, ?_, ?_, ?_⟩⟩
  · exact rewrite_bind_rewrite Condition.ofJson_toJson value
  · exact rewrite_bind_rewrite Filter.ofJson_toJson value
  · exact rewrite_bind_rewrite SortKey.ofJson_toJson value
  · exact rewrite_bind_rewrite Constraints.ofJson_toJson value

/-- An alias, nulls and an empty filter are gone when constraints are written again. -/
example :
    rewrite Constraints.ofJson Constraints.toJson
        (.object [("limit", .null), ("order_by", .array [.object [("dir", .string "desc"),
          ("field", .string "a.b"), ("nulls", .null)]]), ("where", .object [])]) =
      .ok (.object [("order_by", .array [.object [("direction", .string "desc"),
        ("field", .string "a.b")]])]) := by
  rfl

end AirInquiry
