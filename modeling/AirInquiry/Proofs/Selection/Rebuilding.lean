import AirInquiry.Proofs.Json.Conformance
import AirInquiry.Proofs.Selection.Putting
import AirInquiry.Proofs.Selection.Registered

/-!
# Rebuilding what was listed

Reading an object that was built from a listing gives the listing again, whatever value it was read
from (`FieldChoice.ofObject_toObject`). The marks of each field put one value under its name, which
is listed as the field was (`FieldChoice.exists_value_fieldChoices`), and as the names of fields are
distinct, this value stays (`FieldChoice.exists_row_fields`). The marks inside a related row are
those of the row by itself, below the path of the field (`FieldChoice.Restores.marks_eq`).

A row of a table without fields would not come back, as it has no marks.
-/

set_option autoImplicit false
set_option relaxedAutoImplicit false

namespace AirInquiry

open GraphQL (isName)
open Json (Entries)

namespace FieldChoice

theorem marks_ne_nil {choices : List FieldChoice} (h : choices ≠ []) : marks choices ≠ [] :=
  fun hmarks ↦ h (List.map_eq_nil_iff.1 hmarks)

theorem path_ne_nil_of_mem_marks (choices : List FieldChoice) :
    ∀ mark ∈ marks choices, mark.1 ≠ [] := by
  intro mark hmark
  obtain ⟨choice, -, rfl⟩ := List.mem_map.1 hmark
  exact Text.splitChars_ne_nil _ _

theorem marks_append (first second : List FieldChoice) :
    marks (first ++ second) = marks first ++ marks second :=
  List.map_append

theorem marks_flatMap {α : Type} (sources : List α) (listing : α → List FieldChoice) :
    marks (sources.flatMap listing) = sources.flatMap fun source ↦ marks (listing source) :=
  List.map_flatMap

theorem below_flatMap {α : Type} (above : List (List Char)) (sources : List α)
    (listing : α → List Mark) : below above (sources.flatMap listing) =
      sources.flatMap fun source ↦ below above (listing source) :=
  List.map_flatMap

/-- A listing of rows from whose marks a row comes back that is listed in the same way. The lists in
the given row have no more items than paths describe. -/
structure Restores (listing : Option Entries → String → List FieldChoice) : Prop where
  ne_nil : ∀ entries parent, listing entries parent ≠ []
  marks_eq : ∀ entries parent,
    marks (listing entries parent) = below (parentParts parent) (marks (listing entries ""))
  exists_row : ∀ entries : Option Entries, (∀ given ∈ entries, Json.EntriesWithin itemLimit given) →
    ∃ row : Entries, putAll (.object []) (marks (listing entries "")) = .object row ∧
      ∀ parent, listing (some row) parent = listing entries parent

theorem listsWithin_of_get? {limit : Nat} {entries : Option Entries}
    (hentries : ∀ given ∈ entries, Json.EntriesWithin limit given) {key : String} {value : Json}
    (h : (entries.bind fun entries ↦ entries.get? key) = some value) : value.ListsWithin limit := by
  obtain ⟨given, hgiven, hfound⟩ := Option.bind_eq_some_iff.1 h
  exact Json.entriesWithin_iff.1 (hentries given hgiven) _ (Json.Entries.mem_of_get? hfound)

section Places

variable {listing : Option Entries → String → List FieldChoice} (hlisting : Restores listing)
  {name : String} (hname : isName name = true)

include hlisting hname

/-- The marks inside the field of an outer row. -/
theorem Restores.marks_childPath (entries : Option Entries) (parent : String) :
    marks (listing entries (childPath parent name)) =
      below (parentParts parent ++ [name.toList]) (marks (listing entries "")) := by
  rw [hlisting.marks_eq, parentParts_of_isName hname, parts_childPath parent hname]

/-- The marks inside an item of the field of an outer row. -/
theorem Restores.marks_itemPath (entries : Option Entries) (parent : String) (index : Nat) :
    marks (listing entries (itemPath (childPath parent name) index)) =
      below (parentParts parent ++ [itemPart name index]) (marks (listing entries "")) := by
  rw [hlisting.marks_eq, parentParts_itemPath, parts_itemPath parent hname]

end Places

/-- A value that is listed as the field was, and that comes back by the marks of the field. -/
structure IsRebuilt (related : RelatedChoices) (entries : Option Entries) (field : TableField)
    (value : Json) : Prop where
  fieldChoices_eq : ∀ row : Entries, row.get? field.name = some value → ∀ parent,
    fieldChoices related parent (some row) field = fieldChoices related parent entries field
  putAll_eq : ∀ row : Entries, row.get? field.name = none →
    putAll (.object row) (marks (fieldChoices related "" entries field)) =
      .object (row.insert field.name value)

section Fields

variable {related : RelatedChoices}
  (hrelated : ∀ target inner, related target = some inner → Restores inner)

include hrelated

/-! ### Items -/

theorem itemChoices_ne_nil (target path : String) (entry : Json × Nat) :
    itemChoices related target path entry ≠ [] := by
  rw [itemChoices]
  split
  · next hinner => exact (hrelated _ _ hinner).ne_nil _ _
  · exact List.cons_ne_nil _ _

section Items

variable {name : String} (hname : isName name = true) (target : String)

include hname

theorem marks_itemChoices (parent : String) (entry : Json × Nat) :
    marks (itemChoices related target (childPath parent name) entry) =
      below (parentParts parent)
        (marks (itemChoices related target (childPath "" name) entry)) := by
  simp only [itemChoices]
  split
  · next entries inner hinner =>
    have hinside := hrelated _ _ hinner
    rw [hinside.marks_itemPath hname, hinside.marks_itemPath hname, below_below]
    rfl
  · simp only [marks, List.map_singleton, parts_itemPath _ hname]
    rfl

omit hrelated hname in
/-- Anything but a row of a related table is listed as a mark. -/
theorem itemChoices_eq_mark {item : Json}
    (hitem : ¬ ∃ entries inner, item = .object entries ∧ related target = some inner)
    (path : String) (index : Nat) :
    itemChoices related target path (item, index) =
      [⟨itemPath path index, isTrue (some item), none⟩] := by
  simp only [itemChoices]
  split
  · next entries inner hinner => exact absurd ⟨entries, inner, rfl, hinner⟩ hitem
  · rfl

/-- The marks of an item put a value behind the items of a list, which is listed as the item was. -/
theorem exists_value_itemChoices {item : Json} (hitem : item.ListsWithin itemLimit) :
    ∃ value, (∀ path index, itemChoices related target path (value, index) =
        itemChoices related target path (item, index)) ∧
      ∀ {items : List Json}, items.length < itemLimit →
        ∀ {row : Entries}, itemsOf (row.get? name) = items →
          putAll (.object row)
              (marks (itemChoices related target (childPath "" name) (item, items.length))) =
            .object (row.insert name (.array (items ++ [value]))) := by
  by_cases hrow : ∃ entries inner, item = .object entries ∧ related target = some inner
  · obtain ⟨entries, inner, rfl, hinner⟩ := hrow
    have hinside := hrelated _ _ hinner
    obtain ⟨rebuilt, hbuilt, hsame⟩ := hinside.exists_row (some entries) fun given hgiven ↦
      Option.mem_some.1 hgiven ▸ hitem
    refine ⟨.object rebuilt, fun path index ↦ ?_, fun {items} hindex row hitems ↦ ?_⟩
    · simp only [itemChoices, hinner, hsame]
    · simp only [itemChoices, hinner]
      rw [hinside.marks_itemPath hname, ← hbuilt]
      exact putAll_below_item hname hindex (marks_ne_nil (hinside.ne_nil _ _))
        (path_ne_nil_of_mem_marks _) hitems
  · refine ⟨.bool (isTrue (some item)), fun path index ↦ ?_, fun {items} hindex row hitems ↦ ?_⟩
    · rw [itemChoices_eq_mark target hrow]
      rfl
    · rw [itemChoices_eq_mark target hrow, marks, List.map_singleton, parts_itemPath "" hname]
      exact putAll_item hname hindex _ hitems

/-- The marks of items put values behind those that are there, which are listed as the items
were. -/
theorem exists_values_itemChoices {items : List Json}
    (hitems : ∀ item ∈ items, item.ListsWithin itemLimit) (before : List Json)
    (hlength : before.length + items.length ≤ itemLimit) :
    ∃ values : List Json,
      (∀ path index, (values.zipIdx index).flatMap (itemChoices related target path) =
        (items.zipIdx index).flatMap (itemChoices related target path)) ∧
      ∀ row : Entries, putAll (.object (row.insert name (.array before)))
          (marks ((items.zipIdx before.length).flatMap
            (itemChoices related target (childPath "" name)))) =
        .object (row.insert name (.array (before ++ values))) := by
  induction items generalizing before with
  | nil => exact ⟨[], fun _ _ ↦ rfl, fun row ↦ by rw [List.append_nil]; rfl⟩
  | cons item rest ih =>
    obtain ⟨hitem, hrest⟩ := List.forall_mem_cons.1 hitems
    rw [List.length_cons] at hlength
    obtain ⟨value, hvalue, hput⟩ := exists_value_itemChoices hrelated hname target hitem
    obtain ⟨values, hvalues, hputs⟩ := ih hrest (before ++ [value])
      (by rw [List.length_append, List.length_singleton]; omega)
    refine ⟨value :: values, fun path index ↦ ?_, fun row ↦ ?_⟩
    · simp only [List.zipIdx_cons, List.flatMap_cons, hvalue, hvalues]
    · have hbefore : itemsOf ((row.insert name (.array before)).get? name) = before := by
        rw [Json.Entries.get?_insert_self]
        rfl
      rw [List.length_append, List.length_singleton] at hputs
      rw [List.zipIdx_cons, List.flatMap_cons, marks_append, putAll_append, hput (by omega) hbefore,
        Json.Entries.insert_insert, hputs, List.append_assoc]
      rfl

/-- The marks of a list that is not empty put a list under its name, which is listed in the same
way. -/
theorem exists_array_itemChoices {first : Json} {rest : List Json}
    (hwithin : (Json.array (first :: rest)).ListsWithin itemLimit) :
    ∃ value values,
      (∀ path, (value :: values).zipIdx.flatMap (itemChoices related target path) =
        (first :: rest).zipIdx.flatMap (itemChoices related target path)) ∧
      ∀ row : Entries, row.get? name = none →
        putAll (.object row) (marks ((first :: rest).zipIdx.flatMap
            (itemChoices related target (childPath "" name)))) =
          .object (row.insert name (.array (value :: values))) := by
  obtain ⟨hlength, hfirst, hrest⟩ := hwithin
  rw [List.length_cons] at hlength
  obtain ⟨value, hvalue, hput⟩ := exists_value_itemChoices hrelated hname target hfirst
  obtain ⟨values, hvalues, hputs⟩ := exists_values_itemChoices hrelated hname target
    (Json.itemsWithin_iff.1 hrest) [value] (by rw [List.length_singleton]; omega)
  refine ⟨value, values, fun path ↦ ?_, fun row hnone ↦ ?_⟩
  · simp only [List.zipIdx_cons, List.flatMap_cons, hvalue, hvalues]
  · have hnothing : itemsOf (row.get? name) = [] := by
      rw [hnone]
      rfl
    rw [List.zipIdx_cons, List.flatMap_cons, marks_append, putAll_append]
    exact (congrArg (putAll · _) (hput (by decide) hnothing)).trans (hputs row)

end Items

/-! ### Fields -/

theorem fieldChoices_ne_nil (parent : String) (entries : Option Entries) (field : TableField) :
    fieldChoices related parent entries field ≠ [] := by
  simp only [fieldChoices]
  split
  · exact List.cons_ne_nil _ _
  · split
    · next inner hinner => exact (hrelated _ _ hinner).ne_nil _ _
    · exact List.cons_ne_nil _ _
  · split
    · rw [List.zipIdx_cons, List.flatMap_cons]
      exact List.append_ne_nil_of_left_ne_nil (itemChoices_ne_nil hrelated _ _ _) _
    · exact List.cons_ne_nil _ _

variable {field : TableField} (hname : isName field.name = true)

include hname

omit hrelated in
theorem marks_childPath (parent : String) (selected : Bool) (description : Option String) :
    marks [⟨childPath parent field.name, selected, description⟩] =
      [(parentParts parent ++ [field.name.toList], selected)] := by
  rw [marks, List.map_singleton, parts_childPath parent hname]

omit hrelated in
/-- Assumes nothing of what stands under the name. -/
theorem putAll_mark (selected : Bool) (description : Option String) (row : Entries) :
    putAll (.object row) (marks [⟨childPath "" field.name, selected, description⟩]) =
      .object (row.insert field.name (.bool selected)) := by
  rw [marks_childPath hname]
  exact setMark_name hname selected [] row

theorem marks_fieldChoices (parent : String) (entries : Option Entries) :
    marks (fieldChoices related parent entries field) =
      below (parentParts parent) (marks (fieldChoices related "" entries field)) := by
  simp only [fieldChoices]
  split
  · rw [marks_childPath hname, marks_childPath hname]
    rfl
  · split
    · next inner hinner =>
      have hinside := hrelated _ _ hinner
      rw [hinside.marks_childPath hname, hinside.marks_childPath hname, below_below]
      rfl
    · rw [marks_childPath hname, marks_childPath hname]
      rfl
  · split
    · simp only [marks_flatMap, below_flatMap, marks_itemChoices hrelated hname _ parent]
    · rw [marks_childPath hname, marks_childPath hname]
      rfl

omit hrelated in
theorem exists_isRebuilt_scalar (hkind : field.kind = .scalar) (entries : Option Entries) :
    ∃ value, IsRebuilt related entries field value := by
  refine ⟨.bool (isTrue (entries.bind fun entries ↦ entries.get? field.name)),
    fun row hrow parent ↦ ?_, fun row _ ↦ ?_⟩
  · simp only [fieldChoices, hkind, Option.bind_some, hrow]
    rfl
  · simp only [fieldChoices, hkind]
    exact putAll_mark hname _ _ row

theorem exists_isRebuilt_object {target : String} (hkind : field.kind = .object target)
    {entries : Option Entries}
    (hentries : ∀ given ∈ entries, Json.EntriesWithin itemLimit given) :
    ∃ value, IsRebuilt related entries field value := by
  cases hinner : related target with
  | none =>
    refine ⟨.bool false, fun row _ parent ↦ ?_, fun row _ ↦ ?_⟩
    · simp only [fieldChoices, hkind, hinner]
    · simp only [fieldChoices, hkind, hinner]
      exact putAll_mark hname _ _ row
  | some inner =>
    have hinside := hrelated _ _ hinner
    have hgiven : ∀ given ∈
        (entries.bind fun entries ↦ entries.get? field.name).bind Json.asObject?,
          Json.EntriesWithin itemLimit given := by
      intro given hgiven
      obtain ⟨value, hvalue, hobject⟩ := Option.bind_eq_some_iff.1 hgiven
      have hwithin := listsWithin_of_get? hentries hvalue
      cases value with
      | object found =>
        cases hobject
        exact hwithin
      | _ => cases hobject
    obtain ⟨rebuilt, hbuilt, hsame⟩ := hinside.exists_row _ hgiven
    refine ⟨.object rebuilt, fun row hrow parent ↦ ?_, fun row hnone ↦ ?_⟩
    · simp only [fieldChoices, hkind, hinner, Option.bind_some, hrow, Json.asObject?, hsame]
    · simp only [fieldChoices, hkind, hinner]
      rw [hinside.marks_childPath hname, ← hbuilt]
      refine (putAll_below_name hname (marks_ne_nil (hinside.ne_nil _ ""))
        (path_ne_nil_of_mem_marks _) row).trans ?_
      rw [hnone, Option.getD_none]

theorem exists_isRebuilt_list {target : String} (hkind : field.kind = .list target)
    {entries : Option Entries}
    (hentries : ∀ given ∈ entries, Json.EntriesWithin itemLimit given) :
    ∃ value, IsRebuilt related entries field value := by
  by_cases hlist : ∃ first rest,
      (entries.bind fun entries ↦ entries.get? field.name) = some (.array (first :: rest))
  · obtain ⟨first, rest, hlist⟩ := hlist
    obtain ⟨value, values, hsame, hput⟩ := exists_array_itemChoices hrelated hname target
      (listsWithin_of_get? hentries hlist)
    refine ⟨.array (value :: values), fun row hrow parent ↦ ?_, fun row hnone ↦ ?_⟩
    · simp only [fieldChoices, hkind, hlist, Option.bind_some, hrow, Json.asArray?, hsame]
    · simp only [fieldChoices, hkind, hlist, Option.bind_some, Json.asArray?]
      exact hput row hnone
  · have hlisted : ∀ parent, fieldChoices related parent entries field =
        [⟨childPath parent field.name, false, none⟩] := by
      intro parent
      simp only [fieldChoices, hkind]
      split
      · next first rest hitems =>
        obtain ⟨value, hvalue, harray⟩ := Option.bind_eq_some_iff.1 hitems
        cases value with
        | array items =>
          cases harray
          exact absurd ⟨_, _, hvalue⟩ hlist
        | _ => cases harray
      · rfl
    refine ⟨.bool false, fun row hrow parent ↦ ?_, fun row _ ↦ ?_⟩
    · rw [hlisted]
      simp only [fieldChoices, hkind, Option.bind_some, hrow]
      rfl
    · rw [hlisted]
      exact putAll_mark hname _ _ row

omit hname in
theorem exists_isRebuilt (hname : isName field.name = true) {entries : Option Entries}
    (hentries : ∀ given ∈ entries, Json.EntriesWithin itemLimit given) :
    ∃ value, IsRebuilt related entries field value := by
  cases hkind : field.kind with
  | scalar => exact exists_isRebuilt_scalar hname hkind entries
  | object target => exact exists_isRebuilt_object hrelated hname hkind hentries
  | list target => exact exists_isRebuilt_list hrelated hname hkind hentries

end Fields

/-! ### Rows -/

section Rows

variable {related : RelatedChoices}
  (hrelated : ∀ target inner, related target = some inner → Restores inner)

include hrelated

/-- The marks of fields leave everything else alone and make up values that are listed as the fields
were. As the names are distinct, no field finds the value of another one under its name. -/
theorem exists_row_fields {fields : List TableField}
    (hnames : ∀ field ∈ fields, isName field.name = true)
    (hdistinct : (fields.map TableField.name).Nodup) {entries : Option Entries}
    (hentries : ∀ given ∈ entries, Json.EntriesWithin itemLimit given) (before : Entries)
    (hbefore : ∀ field ∈ fields, before.get? field.name = none) :
    ∃ row : Entries, putAll (.object before)
        (marks (fields.flatMap (fieldChoices related "" entries))) = .object row ∧
      (∀ key, key ∉ fields.map TableField.name → row.get? key = before.get? key) ∧
      ∀ field ∈ fields, ∀ parent, fieldChoices related parent (some row) field =
        fieldChoices related parent entries field := by
  induction fields generalizing before with
  | nil => exact ⟨before, rfl, fun _ _ ↦ rfl, fun _ hfield ↦ absurd hfield List.not_mem_nil⟩
  | cons first rest ih =>
    obtain ⟨hfirst, hrest⟩ := List.forall_mem_cons.1 hnames
    obtain ⟨hnew, hdistinct⟩ := List.nodup_cons.1 hdistinct
    obtain ⟨hnone, hnones⟩ := List.forall_mem_cons.1 hbefore
    obtain ⟨value, hvalue⟩ := exists_isRebuilt hrelated hfirst hentries
    have hother : ∀ field ∈ rest, field.name ≠ first.name := fun field hfield hname ↦
      hnew (hname ▸ List.mem_map_of_mem hfield)
    obtain ⟨row, hrow, hkept, hlisted⟩ := ih hrest hdistinct (before.insert first.name value)
      fun field hfield ↦ by
        rw [Json.Entries.get?_insert_of_ne (hother field hfield), hnones field hfield]
    refine ⟨row, ?_, fun key hkey ↦ ?_, List.forall_mem_cons.2 ⟨fun parent ↦ ?_, hlisted⟩⟩
    · rw [List.flatMap_cons, marks_append, putAll_append, hvalue.putAll_eq before hnone, hrow]
    · rw [List.map_cons, List.mem_cons, not_or] at hkey
      rw [hkept key hkey.2, Json.Entries.get?_insert_of_ne hkey.1]
    · exact hvalue.fieldChoices_eq row (by rw [hkept _ hnew, Json.Entries.get?_insert_self]) parent

/-- Assumes that the table has fields, the names of which are distinct. -/
theorem restores_tableChoices {table : Table} (hfields : table.fields ≠ [])
    (hnames : ∀ field ∈ table.fields, isName field.name = true)
    (hdistinct : (table.fields.map TableField.name).Nodup) :
    Restores (tableChoices related table) where
  ne_nil entries parent := by
    obtain ⟨field, hfield⟩ := List.exists_mem_of_ne_nil _ hfields
    obtain ⟨choice, hchoice⟩ :=
      List.exists_mem_of_ne_nil _ (fieldChoices_ne_nil hrelated parent entries field)
    exact List.ne_nil_of_mem (List.mem_flatMap.2 ⟨field, hfield, hchoice⟩)
  marks_eq entries parent := by
    rw [tableChoices, tableChoices, marks_flatMap, marks_flatMap, below_flatMap]
    exact List.flatMap_congr fun field hfield ↦
      marks_fieldChoices hrelated (hnames field hfield) parent entries
  exists_row entries hentries := by
    obtain ⟨row, hrow, -, hlisted⟩ :=
      exists_row_fields hrelated hnames hdistinct hentries [] fun _ _ ↦ rfl
    refine ⟨row, hrow, fun parent ↦ ?_⟩
    exact List.flatMap_congr fun field hfield ↦ hlisted field hfield parent

end Rows

section Catalog

variable {catalog : Catalog} (hcatalog : catalog.NamesFields)
  (hfields : ∀ table ∈ catalog.tables, table.fields ≠ [])

include hcatalog hfields

/-- By induction on the relations still to follow. -/
theorem restores_relatedChoices (steps : Nat) (target : String)
    (inner : Option Entries → String → List FieldChoice)
    (hinner : relatedChoices catalog steps target = some inner) : Restores inner := by
  induction steps generalizing target inner with
  | zero => cases hinner
  | succ steps ih =>
    obtain ⟨table, htable, rfl⟩ := Option.map_eq_some_iff.1 hinner
    have hmem := (Catalog.mem_of_get? htable).1
    exact restores_tableChoices ih (hfields table hmem) (hcatalog.isName table hmem)
      (hcatalog.nodup table hmem)

/-- Reading the object that is built from a listing gives this listing again, whatever stands in the
object that was read first. Assumes that every table has fields, and that lists have no more items
than paths describe. -/
theorem ofObject_toObject {name : String} {table : Table} (htable : catalog.get? name = some table)
    {entries : Entries} (hwithin : (Json.object entries).ListsWithin itemLimit) :
    ∃ choices, ofObject catalog name (.object entries) = some choices ∧
      ofObject catalog name (toObject choices) = some choices := by
  have hmem := (Catalog.mem_of_get? htable).1
  have hlisting : Restores (tableChoices (relatedChoices catalog Catalog.relationLimit) table) :=
    restores_tableChoices (restores_relatedChoices hcatalog hfields _) (hfields table hmem)
      (hcatalog.isName table hmem) (hcatalog.nodup table hmem)
  have hread : ∀ row : Entries, ofObject catalog name (.object row) =
      some (tableChoices (relatedChoices catalog Catalog.relationLimit) table (some row) "") := by
    intro row
    rw [ofObject, htable]
    rfl
  obtain ⟨row, hrow, hsame⟩ := hlisting.exists_row (some entries) fun given hgiven ↦
    Option.mem_some.1 hgiven ▸ hwithin
  refine ⟨_, hread entries, ?_⟩
  rw [toObject_eq, hrow, hread, hsame]

end Catalog

end FieldChoice

/-- Districts have parts, which are districts again, and a river, of which nothing is known. -/
def Catalog.ofDistricts : Catalog where
  tables := [⟨"districts", "", [⟨"name", "", .scalar⟩, ⟨"parts", "", .list "districts"⟩,
    ⟨"river", "", .object "rivers"⟩]⟩]

/-- Not all parts of this district are rows, and its river should be none. -/
theorem FieldChoice.ofObject_toObject_districts :
    ∃ choices, ofObject Catalog.ofDistricts "districts" (.object
        [("name", .string "yes"), ("other", .bool true),
          ("parts", .array [.null, .object [("name", .bool true)], .bool true]),
          ("river", .bool true)]) = some choices ∧
      choices.map FieldChoice.path = ["name", "parts[0]", "parts[1].name", "parts[1].parts",
        "parts[1].river", "parts[2]", "river"] ∧
      ofObject Catalog.ofDistricts "districts" (toObject choices) = some choices := by
  have hcatalog : Catalog.ofDistricts.NamesFields := ⟨by decide, by decide⟩
  have hwithin : (Json.object [("name", .string "yes"), ("other", .bool true),
      ("parts", .array [.null, .object [("name", .bool true)], .bool true]),
      ("river", .bool true)]).ListsWithin itemLimit := by
    simp [Json.ListsWithin, Json.EntriesWithin, Json.ItemsWithin, itemLimit]
  have htable : Catalog.ofDistricts.get? "districts" = Catalog.ofDistricts.tables[0]? := rfl
  obtain ⟨choices, hread, hagain⟩ := ofObject_toObject hcatalog (by decide) htable hwithin
  refine ⟨choices, hread, ?_, hagain⟩
  cases hread
  rfl

end AirInquiry
