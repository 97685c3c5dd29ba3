import AirInquiry.Proofs.Selection.Offered
import AirInquiry.Selection.Object

/-!
# A listing selects what is marked

The paths of a listing are for routes of fields (`FieldChoice.IsFor`), where the index of an item
leaves no trace as long as it is a word of 64 bits. Reading a value that conforms to the schema of a
table lists exactly the routes that are marked in it as selected
(`FieldChoice.exists_ofObject_agrees`). The listing follows the same relations as the schema, and
where there is nothing to read nothing is selected (`FieldChoice.selectsNoMissing_relatedChoices`).

Putting in the identifier adds its path to what is selected, if there is anything
(`FieldChoice.selects_iff`).
-/

set_option autoImplicit false
set_option relaxedAutoImplicit false

namespace AirInquiry

open GraphQL (Name isName)
open Json (Marks)

namespace FieldChoice

open PathTree (partName)

/-- Every part is for a name, and these are the names of a route. -/
def IsFor (parts : List (List Char)) (route : List String) : Prop :=
  ∃ names, parts.mapM partName = some names ∧ names.map Name.text = route

theorem isFor_nil : IsFor [] [] := ⟨[], rfl, rfl⟩

theorem IsFor.append {above : List (List Char)} {route : List String} {part : List Char}
    {name : Name} (h : IsFor above route) (hpart : partName part = some name) :
    IsFor (above ++ [part]) (route ++ [name.text]) := by
  obtain ⟨names, hnames, rfl⟩ := h
  refine ⟨names ++ [name], ?_, List.map_append⟩
  simp [List.mapM_append, hnames, hpart]

theorem isFor_childPath {parent name : String} {route : List String} (hname : isName name = true)
    (h : IsFor (parentParts parent) route) :
    IsFor (parts (childPath parent name)) (route ++ [name]) := by
  rw [parts_childPath parent hname]
  exact h.append (PathTree.partName_name hname)

theorem isFor_itemPath {parent name : String} {route : List String} (hname : isName name = true)
    (h : IsFor (parentParts parent) route) {index : Nat} (hindex : index < Text.wordLimit) :
    IsFor (parts (itemPath (childPath parent name) index)) (route ++ [name]) := by
  rw [parts_itemPath parent hname]
  exact h.append (partName_itemPart hname hindex)

theorem isFor_identifier : IsFor (parts identifierName) [identifierName] := by
  have hidentifier : IsFor (parts (childPath "" identifierName)) ([] ++ [identifierName]) :=
    isFor_childPath (by decide) isFor_nil
  exact hidentifier

theorem namesOf_iff {path : String} {route : List String} (h : IsFor (parts path) route)
    {names : List Name} : PathTree.namesOf path = some names ↔ names.map Name.text = route := by
  obtain ⟨found, hfound, rfl⟩ := h
  have hnames : PathTree.namesOf path = some found := hfound
  rw [hnames, Option.some.injEq, (List.map_injective_iff.2 Name.text_injective).eq_iff, eq_comm]

/-- What is selected in a listing are exactly the routes that go on from `above` as is marked. -/
def Agrees (choices : List FieldChoice) (above : List String) (marked : List String → Prop) :
    Prop :=
  (∀ choice ∈ choices, choice.selected = true →
    ∃ route, marked route ∧ IsFor (parts choice.path) (above ++ route)) ∧
  ∀ route, marked route →
    ∃ choice ∈ choices, choice.selected = true ∧ IsFor (parts choice.path) (above ++ route)

section Listing

variable {choices : List FieldChoice} {above : List String} {marked : List String → Prop}

theorem agrees_of_unselected (hchoices : ∀ choice ∈ choices, choice.selected = false)
    (hmarked : ∀ route, ¬ marked route) : Agrees choices above marked := by
  refine ⟨fun choice hchoice hselected ↦ ?_, fun route h ↦ absurd h (hmarked route)⟩
  rw [hchoices choice hchoice] at hselected
  cases hselected

theorem Agrees.congr {other : List String → Prop} (h : Agrees choices above marked)
    (hother : ∀ route, marked route ↔ other route) : Agrees choices above other := by
  rwa [funext fun route ↦ propext (hother route)] at h

theorem agrees_flatMap {α : Type} {sources : List α} {listing : α → List FieldChoice}
    {markedBy : α → List String → Prop}
    (h : ∀ source ∈ sources, Agrees (listing source) above (markedBy source)) :
    Agrees (sources.flatMap listing) above fun route ↦
      ∃ source ∈ sources, markedBy source route := by
  constructor
  · intro choice hchoice hselected
    obtain ⟨source, hsource, hmem⟩ := List.mem_flatMap.1 hchoice
    obtain ⟨route, hmarked, hfor⟩ := (h source hsource).1 choice hmem hselected
    exact ⟨route, ⟨source, hsource, hmarked⟩, hfor⟩
  · rintro route ⟨source, hsource, hmarked⟩
    obtain ⟨choice, hmem, hselected⟩ := (h source hsource).2 route hmarked
    exact ⟨choice, List.mem_flatMap.2 ⟨source, hsource, hmem⟩, hselected⟩

/-- What goes on from a longer route goes on from its beginning as well. -/
theorem Agrees.below {name : String} (h : Agrees choices (above ++ [name]) marked) :
    Agrees choices above fun route ↦ ∃ rest, route = name :: rest ∧ marked rest := by
  constructor
  · intro choice hchoice hselected
    obtain ⟨rest, hmarked, hfor⟩ := h.1 choice hchoice hselected
    exact ⟨name :: rest, ⟨rest, rfl, hmarked⟩, by rwa [List.append_cons]⟩
  · rintro route ⟨rest, rfl, hmarked⟩
    obtain ⟨choice, hchoice, hselected, hfor⟩ := h.2 rest hmarked
    exact ⟨choice, hchoice, hselected, by rwa [List.append_cons]⟩

end Listing

/-- Where there is no row of a related table nothing of it is selected. -/
def SelectsNoMissing (related : RelatedChoices) : Prop :=
  ∀ target inner, related target = some inner →
    ∀ parent, ∀ choice ∈ inner none parent, choice.selected = false

section Unselected

variable {related : RelatedChoices} (hrelated : SelectsNoMissing related)

include hrelated

/-- Assumes that nothing stands under the name of the field. -/
theorem unselected_fieldChoices {entries : Option Json.Entries} {field : TableField}
    (hraw : (entries.bind fun entries ↦ entries.get? field.name) = none) (parent : String) :
    ∀ choice ∈ fieldChoices related parent entries field, choice.selected = false := by
  intro choice hchoice
  simp only [fieldChoices, hraw] at hchoice
  split at hchoice
  · cases List.mem_singleton.1 hchoice
    rfl
  · split at hchoice
    · next inner hinner => exact hrelated _ inner hinner _ choice hchoice
    · cases List.mem_singleton.1 hchoice
      rfl
  · cases List.mem_singleton.1 hchoice
    rfl

theorem unselected_tableChoices (table : Table) (parent : String) :
    ∀ choice ∈ tableChoices related table none parent, choice.selected = false := by
  intro choice hchoice
  obtain ⟨field, -, hmem⟩ := List.mem_flatMap.1 hchoice
  exact unselected_fieldChoices hrelated rfl parent choice hmem

end Unselected

/-- By induction on the relations still to follow. -/
theorem selectsNoMissing_relatedChoices (catalog : Catalog) (steps : Nat) :
    SelectsNoMissing (relatedChoices catalog steps) := by
  induction steps with
  | zero =>
    intro target inner hinner
    cases hinner
  | succ steps ih =>
    intro target inner hinner parent
    obtain ⟨table, -, rfl⟩ := Option.map_eq_some_iff.1 hinner
    exact unselected_tableChoices ih table parent

section Conforming

open Json.Schema (accepts)
open Catalog (fieldSchema rowSchema relatedSchema conforms_of_fieldSchema conforms_of_rowSchema)

/-- A listing selects what is marked in a value that conforms to a schema for rows. -/
def ListsMarked (listing : Option Json.Entries → String → List FieldChoice) (row : Json) : Prop :=
  ∀ (value : Json) (parent : String) (above : List String), accepts row value = true →
    value.ListsWithin Text.wordLimit → IsFor (parentParts parent) above →
      ∃ entries, value = .object entries ∧ Agrees (listing (some entries) parent) above value.Marks

variable {related : RelatedChoices} {relatedRow : String → Option Json} {table : Table}
  {field : TableField} {entries : Json.Entries} {parent : String} {above : List String}

theorem agrees_mark {path : String} (hpath : IsFor (parts path) above) (mark : Bool)
    (description : Option String) :
    Agrees [⟨path, mark, description⟩] above (Json.bool mark).Marks := by
  constructor
  · intro choice hchoice hselected
    cases List.mem_singleton.1 hchoice
    cases (hselected : mark = true)
    exact ⟨[], .here, by rwa [List.append_nil]⟩
  · intro route hmarks
    cases hmarks
    exact ⟨_, .head _, rfl, by rwa [List.append_nil]⟩

/-- Assumes that the items of the list conform to the schema of a related row. -/
theorem agrees_itemChoices {target : String} {row : Json}
    {inner : Option Json.Entries → String → List FieldChoice}
    (hinner : related target = some inner) (hlists : ListsMarked inner row) {path : String}
    {items : List Json} (hitems : ∀ item ∈ items, accepts row item = true)
    (hwithin : (Json.array items).ListsWithin Text.wordLimit)
    (hpath : ∀ index, index < Text.wordLimit → IsFor (parts (itemPath path index)) above) :
    Agrees (items.zipIdx.flatMap (itemChoices related target path)) above
      (Json.array items).Marks := by
  obtain ⟨hlength, hitemsWithin⟩ := hwithin
  have hflat : Agrees (items.zipIdx.flatMap (itemChoices related target path)) above fun route ↦
      ∃ entry ∈ items.zipIdx, entry.1.Marks route := by
    refine agrees_flatMap fun entry hentry ↦ ?_
    obtain ⟨item, index⟩ := entry
    obtain ⟨-, hindex, hitem⟩ := List.mem_zipIdx hentry
    rw [Nat.zero_add] at hindex
    have hmem : item ∈ items := hitem ▸ List.getElem_mem _
    have hitemPath := hpath index (hindex.trans_le hlength)
    rw [← parentParts_itemPath] at hitemPath
    obtain ⟨entries, rfl, hagrees⟩ :=
      hlists _ _ _ (hitems item hmem) (Json.itemsWithin_iff.1 hitemsWithin item hmem) hitemPath
    simp only [itemChoices, hinner]
    exact hagrees
  refine hflat.congr fun route ↦ ⟨?_, ?_⟩
  · rintro ⟨⟨item, index⟩, hentry, hmarks⟩
    obtain ⟨-, -, hitem⟩ := List.mem_zipIdx hentry
    exact .inside (hitem ▸ List.getElem_mem _) hmarks
  · intro hmarks
    cases hmarks with
    | inside hitem hmarks =>
      obtain ⟨index, hindex, rfl⟩ := List.mem_iff_getElem.1 hitem
      have hentry := List.mk_mem_zipIdx_iff_getElem?.2 (List.getElem?_eq_getElem hindex)
      exact ⟨(_, index), hentry, hmarks⟩

/-- Assumes that nothing is selected where there is no related row, and that related tables for
which there is a schema are listed as is marked. -/
theorem agrees_fieldChoices
    (hmissing : SelectsNoMissing related)
    (hrelated : ∀ {target : String} {row : Json}, relatedRow target = some row →
      ∃ inner, related target = some inner ∧ ListsMarked inner row)
    (hname : isName field.name = true) (habove : IsFor (parentParts parent) above)
    (hwithin : (Json.object entries).ListsWithin Text.wordLimit)
    (hfield : ∀ inner, entries.get? field.name = some inner →
      ∃ schema, fieldSchema relatedRow field = some schema ∧ accepts schema inner = true) :
    Agrees (fieldChoices related parent (some entries) field) (above ++ [field.name]) fun rest ↦
      ∃ inner, entries.get? field.name = some inner ∧ Marks inner rest := by
  have hpath := isFor_childPath hname habove
  cases hraw : entries.get? field.name with
  | none =>
    have hnone : ((some entries).bind fun entries ↦ entries.get? field.name) = none := hraw
    refine agrees_of_unselected (unselected_fieldChoices hmissing hnone parent) ?_
    rintro route ⟨inner, hinner, -⟩
    cases hinner
  | some inner =>
    obtain ⟨schema, hschema, haccepts⟩ := hfield inner hraw
    have hinnerWithin : inner.ListsWithin Text.wordLimit :=
      Json.entriesWithin_iff.1 hwithin _ (Json.Entries.mem_of_get? hraw)
    suffices h : Agrees (fieldChoices related parent (some entries) field) (above ++ [field.name])
        inner.Marks from h.congr fun rest ↦ by simp
    rcases conforms_of_fieldSchema hschema haccepts with ⟨hkind, mark, rfl⟩ |
      ⟨target, row, hkind, hrow, hvalue⟩ | ⟨target, row, items, hkind, hrow, rfl, hitems⟩
    · simp only [fieldChoices, hkind, Option.bind_some, hraw]
      exact agrees_mark hpath mark _
    · obtain ⟨listing, hlisting, hlists⟩ := hrelated hrow
      rw [← parentParts_of_isName hname] at hpath
      simp only [fieldChoices, hkind, Option.bind_some, hraw, hlisting]
      rcases hvalue with hvalue | rfl
      · obtain ⟨rows, rfl, hagrees⟩ := hlists _ _ _ hvalue hinnerWithin hpath
        exact hagrees
      · refine agrees_of_unselected (hmissing _ _ hlisting _) fun route hmarks ↦ ?_
        cases hmarks
    · obtain ⟨listing, hlisting, hlists⟩ := hrelated hrow
      have hagrees := agrees_itemChoices hlisting hlists hitems hinnerWithin fun index ↦
        isFor_itemPath hname habove
      cases items with
      | nil =>
        simp only [fieldChoices, hkind, Option.bind_some, hraw, Json.asArray?]
        exact agrees_of_unselected (by simp) fun route hmarks ↦ by
          cases hmarks with
          | inside hitem _ => cases hitem
      | cons first rest =>
        simp only [fieldChoices, hkind, Option.bind_some, hraw, Json.asArray?]
        exact hagrees

/-- What is marked in an object stands under the name of a field. -/
theorem agrees_tableChoices {catalog : Catalog} (hcatalog : catalog.NamesFields) {name : String}
    (htable : catalog.get? name = some table)
    (hmissing : SelectsNoMissing related)
    (hrelated : ∀ {target : String} {row : Json}, relatedRow target = some row →
      ∃ inner, related target = some inner ∧ ListsMarked inner row) :
    ListsMarked (tableChoices related table) (rowSchema relatedRow table) := by
  intro value parent above hvalue hwithin habove
  obtain ⟨entries, rfl, hentries⟩ := conforms_of_rowSchema hvalue
  refine ⟨entries, rfl, ?_⟩
  have hfields : Agrees (tableChoices related table (some entries) parent) above fun route ↦
      ∃ field ∈ table.fields, ∃ rest, route = field.name :: rest ∧
        ∃ inner, Json.Entries.get? entries field.name = some inner ∧ Marks inner rest := by
    refine agrees_flatMap fun field hfield ↦ Agrees.below ?_
    refine agrees_fieldChoices hmissing hrelated (hcatalog.isName_of_mem htable hfield) habove
      hwithin fun inner hinner ↦ ?_
    obtain ⟨other, hother, hname, hschema⟩ := hentries field.name inner hinner
    rw [hcatalog.eq_of_name_eq htable hother hfield hname] at hschema
    exact hschema
  refine hfields.congr fun route ↦ ⟨?_, fun hmarks ↦ ?_⟩
  · rintro ⟨field, -, rest, rfl, inner, hinner, hmarks⟩
    exact .under hinner hmarks
  · cases hmarks with
    | under hkey hinner =>
      obtain ⟨field, hfield, rfl, -⟩ := hentries _ _ hkey
      exact ⟨field, hfield, _, rfl, _, hkey, hinner⟩

/-- By induction on the relations still to follow. -/
theorem listsMarked_relatedChoices {catalog : Catalog} (hcatalog : catalog.NamesFields)
    (steps : Nat) {target : String} {row : Json}
    (hrow : relatedSchema catalog steps target = some row) :
    ∃ listing, relatedChoices catalog steps target = some listing ∧ ListsMarked listing row := by
  induction steps generalizing target row with
  | zero => cases hrow
  | succ steps ih =>
    obtain ⟨table, htable, rfl⟩ := Option.map_eq_some_iff.1 hrow
    refine ⟨tableChoices (relatedChoices catalog steps) table, ?_, ?_⟩
    · rw [relatedChoices, htable, Option.map_some]
    · exact agrees_tableChoices hcatalog htable (selectsNoMissing_relatedChoices catalog steps) ih

/-- Reading a conforming object gives a listing of exactly what is marked in it. -/
theorem exists_ofObject_agrees {catalog : Catalog} (hcatalog : catalog.NamesFields) {name : String}
    {schema value : Json} (hschema : catalog.choiceSchema name = some schema)
    (hvalue : accepts schema value = true) (hwithin : value.ListsWithin Text.wordLimit) :
    ∃ choices, ofObject catalog name value = some choices ∧ Agrees choices [] value.Marks := by
  obtain ⟨table, htable, rfl⟩ := Option.map_eq_some_iff.1 hschema
  have hlists : ListsMarked (tableChoices (relatedChoices catalog Catalog.relationLimit) table)
      (rowSchema (relatedSchema catalog Catalog.relationLimit) table) :=
    agrees_tableChoices hcatalog htable (selectsNoMissing_relatedChoices catalog _)
      (listsMarked_relatedChoices hcatalog _)
  obtain ⟨entries, rfl, hagrees⟩ := hlists value "" [] hvalue hwithin isFor_nil
  refine ⟨_, ?_, hagrees⟩
  rw [ofObject, htable]
  rfl

end Conforming

/-! ### The identifier -/

section Identifier

variable {fields : List FieldChoice} (property : String → Prop)

/-- Selecting one path of a listing changes no path. -/
theorem exists_selected_modify {index : Nat} (hindex : index < fields.length) :
    (∃ choice ∈ fields.modify index fun field ↦ { field with selected := true },
        choice.selected = true ∧ property choice.path) ↔
      property fields[index].path ∨
        ∃ choice ∈ fields, choice.selected = true ∧ property choice.path := by
  constructor
  · rintro ⟨choice, hchoice, hmarked, hproperty⟩
    obtain ⟨position, hposition, rfl⟩ := List.mem_iff_getElem.1 hchoice
    rw [List.length_modify] at hposition
    rw [List.getElem_modify] at hmarked hproperty
    by_cases hsame : index = position
    · subst hsame
      rw [if_pos rfl] at hproperty
      exact .inl hproperty
    · rw [if_neg hsame] at hmarked hproperty
      exact .inr ⟨_, List.getElem_mem hposition, hmarked, hproperty⟩
  · have hat : ∀ position (h : position < fields.length),
        index = position ∨ fields[position].selected = true → property fields[position].path →
        ∃ choice ∈ fields.modify index fun field ↦ { field with selected := true },
          choice.selected = true ∧ property choice.path := by
      intro position h hmarked hproperty
      refine ⟨_, List.getElem_mem (by rwa [List.length_modify]), ?_⟩
      rw [List.getElem_modify]
      by_cases hsame : index = position
      · rw [if_pos hsame]
        exact ⟨rfl, hproperty⟩
      · rw [if_neg hsame]
        exact ⟨hmarked.resolve_left hsame, hproperty⟩
    rintro (hproperty | ⟨choice, hchoice, hmarked, hproperty⟩)
    · exact hat index hindex (.inl rfl) hproperty
    · obtain ⟨position, hposition, rfl⟩ := List.mem_iff_getElem.1 hchoice
      exact hat position hposition (.inr hmarked) hproperty

/-- Marking the identifier adds it to what is selected, if anything is. -/
theorem exists_selected_withIdentifier :
    (∃ choice ∈ withIdentifier fields, choice.selected = true ∧ property choice.path) ↔
      (∃ choice ∈ fields, choice.selected = true) ∧
        (property identifierName ∨
          ∃ choice ∈ fields, choice.selected = true ∧ property choice.path) := by
  rw [withIdentifier]
  by_cases hany : fields.any (·.selected)
  · have hselected : ∃ choice ∈ fields, choice.selected = true := List.any_eq_true.1 hany
    rw [if_pos hany, and_iff_right hselected]
    cases hindex : fields.findIdx? (·.path = identifierName) with
    | none => simp
    | some index =>
      obtain ⟨hlt, hpath, -⟩ := List.findIdx?_eq_some_iff_getElem.1 hindex
      have hidentifier : fields[index].path = identifierName := by simpa using hpath
      rw [← hidentifier]
      exact exists_selected_modify property hlt
  · rw [if_neg hany]
    have hnone : ¬ ∃ choice ∈ fields, choice.selected = true := fun h ↦
      hany (List.any_eq_true.2 h)
    constructor
    · rintro ⟨choice, hchoice, hselected, -⟩
      exact absurd ⟨choice, hchoice, hselected⟩ hnone
    · exact fun h ↦ absurd h.1 hnone

end Identifier

/-- The paths that are selected once the identifier is put in. -/
theorem selects_iff {choices : List FieldChoice} {marked : List String → Prop}
    (hagrees : Agrees choices [] marked) {names : List Name} :
    (∃ choice ∈ withIdentifier choices, choice.selected = true ∧
        PathTree.namesOf choice.path = some names) ↔
      (∃ choice ∈ choices, choice.selected = true) ∧
        (names.map Name.text = [identifierName] ∨ marked (names.map Name.text)) := by
  have hmarked : (∃ choice ∈ choices, choice.selected = true ∧
      PathTree.namesOf choice.path = some names) ↔ marked (names.map Name.text) := by
    constructor
    · rintro ⟨choice, hchoice, hselected, hnames⟩
      obtain ⟨route, hroute, hfor⟩ := hagrees.1 choice hchoice hselected
      rwa [(namesOf_iff hfor).1 hnames]
    · intro hroute
      obtain ⟨choice, hchoice, hselected, hfor⟩ := hagrees.2 _ hroute
      exact ⟨choice, hchoice, hselected, (namesOf_iff hfor).2 rfl⟩
  have hidentified := @exists_selected_withIdentifier choices fun path ↦
    PathTree.namesOf path = some names
  rwa [namesOf_iff isFor_identifier, hmarked] at hidentified

end FieldChoice

end AirInquiry
