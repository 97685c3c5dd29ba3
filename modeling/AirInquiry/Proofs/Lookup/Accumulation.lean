import AirInquiry.Proofs.Json.Ordered
import AirInquiry.Proofs.Lookup.Results
import Mathlib.Data.List.DropRight

/-!
# What results come to

Results are merged one after another into results that are there at the start (`mergeAll`), and what
they hold for a table in the end depends on the values for that table alone. The newest value says
how: of lists at the end all rows are kept, of objects at the end the newest value under each key,
and of anything else the newest value itself (`ComesTo`). Whatever is in front of the last change of
shape is lost.

One more value takes a value that comes of the earlier ones to one that comes of all of them
(`ComesTo.mergeValue`), and so any number of values does (`comesTo_mergeValues`).
-/

set_option autoImplicit false
set_option relaxedAutoImplicit false

namespace AirInquiry.Lookup

variable {table : String} {start collected newer : Json.Entries} {results : List Json.Entries}
  {values : List Json} {older value : Json}

/-- Results with others merged into them, one after another. -/
def mergeAll (start : Json.Entries) (results : List Json.Entries) : Json.Entries :=
  results.foldl merge start

/-- The data of inquiries is collected in this way. -/
theorem collect_eq_mergeAll (collected : Json.Entries) (phase : Phase) :
    collect collected phase = mergeAll collected (phase.inquiries.map Inquiry.data) :=
  List.foldl_map.symm

/-- The values for a table, from those at the start on. -/
def valuesOf (table : String) (start : Json.Entries) (results : List Json.Entries) : List Json :=
  (start.get? table).toList ++ results.filterMap fun result ↦ result.get? table

/-- The longest end of values that holds only lists. -/
def listsAtEnd (values : List Json) : List Json :=
  values.rtakeWhile fun value ↦ value.asArray?.isSome

/-- The longest end of values that holds only objects. -/
def objectsAtEnd (values : List Json) : List Json :=
  values.rtakeWhile fun value ↦ value.asObject?.isSome

/-- What values come to: the rows of the lists at the end in their order, an object that holds under
each key the newest value of the objects at the end, or the newest value. -/
inductive ComesTo (values : List Json) : Json → Prop where
  | rows (newest : List Json) (hlast : values.getLast? = some (.array newest)) :
      ComesTo values (.array ((listsAtEnd values).flatMap rowsOf))
  | entries (newest entries : Json.Entries) (hlast : values.getLast? = some (.object newest))
      (hentries : ∀ key, entries.get? key =
        ((objectsAtEnd values).filterMap fun value ↦ value.get? key).getLast?) :
      ComesTo values (.object entries)
  | newest (value : Json) (hlast : values.getLast? = some value) (hlist : value.asArray? = none)
      (hobject : value.asObject? = none) : ComesTo values value

/-! ### Values of one table -/

theorem mergeValues_concat (older : Option Json) (values : List Json) (last : Json) :
    mergeValues older (values ++ [last]) = some (mergeValue (mergeValues older values) last) :=
  mergeValues_append older values [last]

theorem mergeValues_eq_none_iff : mergeValues none values = none ↔ values = [] := by
  rcases List.eq_nil_or_concat values with rfl | ⟨front, last, rfl⟩
  · exact iff_of_true rfl rfl
  · rw [List.concat_eq_append, mergeValues_concat]
    exact iff_of_false (Option.some_ne_none _) (List.append_ne_nil_of_right_ne_nil _ (by simp))

theorem getLast?_filterMap_concat {α β : Type} (find : α → Option β) (items : List α) (item : α) :
    ((items ++ [item]).filterMap find).getLast? =
      (find item).or (items.filterMap find).getLast? := by
  rw [List.filterMap_append, List.getLast?_append, List.filterMap_cons]
  cases find item <;> rfl

theorem rtakeWhile_eq_nil {keep : Json → Bool} (hlast : values.getLast? = some value)
    (hvalue : keep value = false) : values.rtakeWhile keep = [] := by
  obtain ⟨front, rfl⟩ := List.getLast?_eq_some_iff.1 hlast
  exact List.rtakeWhile_concat_neg keep front value (by rw [hvalue]; decide)

theorem listsAtEnd_concat (values rows : List Json) :
    listsAtEnd (values ++ [.array rows]) = listsAtEnd values ++ [.array rows] :=
  List.rtakeWhile_concat_pos _ values (.array rows) rfl

theorem objectsAtEnd_concat (values : List Json) (entries : Json.Entries) :
    objectsAtEnd (values ++ [.object entries]) = objectsAtEnd values ++ [.object entries] :=
  List.rtakeWhile_concat_pos _ values (.object entries) rfl

theorem comesTo_array (h : listsAtEnd values = []) (rows : List Json) :
    ComesTo (values ++ [.array rows]) (.array rows) := by
  have hrows : ComesTo (values ++ [.array rows]) _ := .rows rows List.getLast?_concat
  rwa [listsAtEnd_concat, h, List.nil_append, List.flatMap_singleton] at hrows

theorem comesTo_object (h : objectsAtEnd values = []) (entries : Json.Entries) :
    ComesTo (values ++ [.object entries]) (.object entries) := by
  refine .entries entries entries List.getLast?_concat fun key ↦ ?_
  rw [objectsAtEnd_concat, h, getLast?_filterMap_concat]
  exact Option.or_none.symm

theorem comesTo_singleton (value : Json) : ComesTo [value] value := by
  cases value with
  | array rows => exact comesTo_array (List.rtakeWhile_nil _) rows
  | object entries => exact comesTo_object (List.rtakeWhile_nil _) entries
  | _ => exact .newest _ rfl rfl rfl

/-- One more list. -/
theorem ComesTo.mergeValue_array (h : ComesTo values older) (rows : List Json) :
    ComesTo (values ++ [.array rows]) (mergeValue (some older) (.array rows)) := by
  cases h with
  | rows newest hlast =>
    have hrows : ComesTo (values ++ [.array rows]) _ := .rows rows List.getLast?_concat
    rwa [listsAtEnd_concat, List.flatMap_append, List.flatMap_singleton] at hrows
  | entries newest entries hlast => exact comesTo_array (rtakeWhile_eq_nil hlast rfl) rows
  | newest _ hlast hlist =>
    have hnone : listsAtEnd values = [] := rtakeWhile_eq_nil hlast (by rw [hlist]; rfl)
    cases older with
    | array items => cases hlist
    | _ => exact comesTo_array hnone rows

/-- One more object, in which no key is repeated. -/
theorem ComesTo.mergeValue_object (h : ComesTo values older) (hnewer : newer.IsSorted) :
    ComesTo (values ++ [.object newer]) (mergeValue (some older) (.object newer)) := by
  cases h with
  | rows newest hlast => exact comesTo_object (rtakeWhile_eq_nil hlast rfl) newer
  | entries newest entries hlast hentries =>
    refine .entries newer _ List.getLast?_concat fun key ↦ ?_
    rw [Json.Entries.get?_union key entries hnewer, hentries, objectsAtEnd_concat,
      getLast?_filterMap_concat]
    rfl
  | newest _ hlast _ hobject =>
    have hnone : objectsAtEnd values = [] := rtakeWhile_eq_nil hlast (by rw [hobject]; rfl)
    cases older with
    | object entries => cases hobject
    | _ => exact comesTo_object hnone newer

theorem ComesTo.mergeValue (h : ComesTo values older) (hvalue : value.IsOrdered) :
    ComesTo (values ++ [value]) (mergeValue (some older) value) := by
  cases value with
  | array rows => exact h.mergeValue_array rows
  | object entries => exact h.mergeValue_object (Json.isOrdered_object_iff.1 hvalue).1
  | _ => cases older <;> exact .newest _ List.getLast?_concat rfl rfl

/-- By induction on the values from the last one on. -/
theorem comesTo_mergeValues (h : ∀ value ∈ values, value.IsOrdered) :
    ∀ value ∈ mergeValues none values, ComesTo values value := by
  induction values using List.reverseRecOn with
  | nil =>
    intro value hvalue
    cases hvalue
  | append_singleton values last ih =>
    obtain ⟨hvalues, hlast⟩ := List.forall_mem_append.1 h
    intro value hvalue
    rw [mergeValues_concat] at hvalue
    cases hvalue
    cases holder : mergeValues none values with
    | some older => exact (ih hvalues older holder).mergeValue (hlast _ (List.mem_singleton_self _))
    | none =>
      rw [mergeValues_eq_none_iff.1 holder]
      exact comesTo_singleton last

/-! ### All tables -/

theorem isOrdered_mergeValue {older : Option Json} (holder : ∀ value ∈ older, value.IsOrdered)
    (hvalue : value.IsOrdered) : (mergeValue older value).IsOrdered := by
  unfold mergeValue
  split
  · next rows added =>
    have hrows := Json.isOrdered_array_iff.1 (holder _ rfl)
    exact Json.isOrdered_array_iff.2
      (List.forall_mem_append.2 ⟨hrows, Json.isOrdered_array_iff.1 hvalue⟩)
  · exact Json.isOrdered_union (holder _ rfl) hvalue
  · exact hvalue

theorem isOrdered_merge (hcollected : (Json.object collected).IsOrdered)
    (hnewer : ∀ entry ∈ newer, entry.2.IsOrdered) :
    (Json.object (merge collected newer)).IsOrdered := by
  induction newer generalizing collected with
  | nil => exact hcollected
  | cons entry rest ih =>
    obtain ⟨hentry, hrest⟩ := List.forall_mem_cons.1 hnewer
    have hvalue : (mergeValue (collected.get? entry.1) entry.2).IsOrdered :=
      isOrdered_mergeValue (fun value hvalue ↦ Json.isOrdered_of_get? hcollected hvalue) hentry
    exact ih (Json.isOrdered_insert entry.1 hcollected hvalue) hrest

theorem isOrdered_mergeAll (hstart : (Json.object start).IsOrdered)
    (hresults : ∀ result ∈ results, (Json.object result).IsOrdered) :
    (Json.object (mergeAll start results)).IsOrdered := by
  induction results generalizing start with
  | nil => exact hstart
  | cons result rest ih =>
    obtain ⟨hresult, hrest⟩ := List.forall_mem_cons.1 hresults
    exact ih (isOrdered_merge hstart (Json.isOrdered_object_iff.1 hresult).2) hrest

theorem valuesFor_eq_nil {data : Json.Entries} (h : table ∉ data.map Prod.fst) :
    valuesFor table data = [] := by
  rw [valuesFor, List.map_eq_nil_iff, List.filter_eq_nil_iff]
  intro entry hentry
  rw [decide_eq_true_eq]
  rintro rfl
  exact h (List.mem_map_of_mem hentry)

/-- Merging leaves the tables alone that are not mentioned. -/
theorem get?_merge_of_notMem (collected : Json.Entries) (h : table ∉ newer.map Prod.fst) :
    (merge collected newer).get? table = collected.get? table := by
  rw [get?_merge, valuesFor_eq_nil h]
  rfl

theorem valuesFor_of_isSorted {data : Json.Entries} (h : data.IsSorted) :
    valuesFor table data = (data.get? table).toList := by
  induction data with
  | nil => rfl
  | cons entry rest ih =>
    obtain ⟨other, value⟩ := entry
    by_cases hsame : table = other
    · subst hsame
      have hnone := Json.Entries.get?_eq_none_of_isSorted_cons h
      rw [Json.Entries.get?_eq_none_iff] at hnone
      rw [valuesFor_cons_self, Json.Entries.get?_cons_self, valuesFor_eq_nil hnone]
      rfl
    · rw [valuesFor_cons_of_ne hsame, Json.Entries.get?_cons_of_ne hsame,
        ih (Json.Entries.isSorted_cons.1 h).2]

theorem mergeValues_eq (older : Option Json) (values : List Json) :
    mergeValues older values = mergeValues none (older.toList ++ values) := by
  cases older with
  | none => rfl
  | some older => cases older <;> rfl

theorem get?_mergeAll (hresults : ∀ result ∈ results, (Json.object result).IsOrdered) :
    (mergeAll start results).get? table = mergeValues none (valuesOf table start results) := by
  rw [valuesOf, ← mergeValues_eq]
  induction results generalizing start with
  | nil => rfl
  | cons result rest ih =>
    obtain ⟨hresult, hrest⟩ := List.forall_mem_cons.1 hresults
    have hstep : (mergeAll start (result :: rest)).get? table =
        mergeValues ((merge start result).get? table)
          (rest.filterMap fun result ↦ result.get? table) := ih hrest
    rw [hstep, get?_merge, valuesFor_of_isSorted (Json.isOrdered_object_iff.1 hresult).1,
      ← mergeValues_append, List.filterMap_cons]
    cases result.get? table <;> rfl

theorem isOrdered_of_mem_valuesOf (hstart : (Json.object start).IsOrdered)
    (hresults : ∀ result ∈ results, (Json.object result).IsOrdered) :
    ∀ value ∈ valuesOf table start results, value.IsOrdered := by
  intro value hvalue
  rcases List.mem_append.1 hvalue with hmem | hmem
  · exact Json.isOrdered_of_get? hstart (Option.mem_toList.1 hmem)
  · obtain ⟨result, hresult, hget⟩ := List.mem_filterMap.1 hmem
    exact Json.isOrdered_of_get? (hresults result hresult) hget

theorem valuesOf_ne_nil_iff : valuesOf table start results ≠ [] ↔
    table ∈ start.map Prod.fst ∨ ∃ result ∈ results, table ∈ result.map Prod.fst := by
  rw [valuesOf, ne_eq, List.append_eq_nil_iff, Option.toList_eq_nil_iff,
    List.filterMap_eq_nil_iff, not_and_or, Json.Entries.get?_eq_none_iff, not_not, not_forall]
  simp only [Json.Entries.get?_eq_none_iff, not_forall, not_not, exists_prop]

/-- Results that are merged one after another hold exactly the tables that any of them holds, and
for each table what its values come to. A table that results do not mention is left as it is. Keys
are increasing everywhere before and after. -/
theorem mergeAll_comesTo (hstart : (Json.object start).IsOrdered)
    (hresults : ∀ result ∈ results, (Json.object result).IsOrdered) :
    (∀ table, table ∈ (mergeAll start results).map Prod.fst ↔
      table ∈ start.map Prod.fst ∨ ∃ result ∈ results, table ∈ result.map Prod.fst) ∧
    (∀ table, ∀ value ∈ (mergeAll start results).get? table,
      ComesTo (valuesOf table start results) value) ∧
    (∀ (collected newer : Json.Entries) (table : String), table ∉ newer.map Prod.fst →
      (merge collected newer).get? table = collected.get? table) ∧
    (Json.object (mergeAll start results)).IsOrdered := by
  refine ⟨fun table ↦ ?_, fun table value hvalue ↦ ?_, fun collected newer table h ↦ ?_,
    isOrdered_mergeAll hstart hresults⟩
  · rw [← valuesOf_ne_nil_iff, Json.Entries.mem_keys_iff, get?_mergeAll hresults,
      Option.isSome_iff_ne_none, ne_eq, mergeValues_eq_none_iff]
  · rw [get?_mergeAll hresults] at hvalue
    exact comesTo_mergeValues (isOrdered_of_mem_valuesOf hstart hresults) value hvalue
  · exact get?_merge_of_notMem collected h

/-- Means by city, and a list of stations. -/
def firstStations : Json.Entries :=
  [("means", .object [("Hanoi", .number (.integer 61))]), ("stations", .array [.string "A"])]

/-- A list of stations that is missing, two more lists, and means of which one is newer. -/
def laterStations : List Json.Entries :=
  [[("stations", .null)], [("stations", .array [.string "B"])],
    [("means", .object [("Hanoi", .number (.integer 64)), ("Hue", .number (.integer 40))]),
      ("stations", .array [.string "C", .string "B"])]]

/-- Of the stations those behind the missing list are left, and of the means the newest ones. -/
theorem mergeAll_comesTo_stations :
    (Json.object firstStations).IsOrdered ∧
    (∀ result ∈ laterStations, (Json.object result).IsOrdered) ∧
    ComesTo (valuesOf "stations" firstStations laterStations)
      (.array [.string "B", .string "C", .string "B"]) ∧
    ComesTo (valuesOf "means" firstStations laterStations)
      (.object [("Hanoi", .number (.integer 64)), ("Hue", .number (.integer 40))]) := by
  have hstart : (Json.object firstStations).IsOrdered := by decide
  have hresults : ∀ result ∈ laterStations, (Json.object result).IsOrdered := by decide
  have hcomesTo := (mergeAll_comesTo hstart hresults).2.1
  exact ⟨hstart, hresults, hcomesTo "stations" _ rfl, hcomesTo "means" _ rfl⟩

end AirInquiry.Lookup
