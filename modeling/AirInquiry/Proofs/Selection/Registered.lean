import AirInquiry.Proofs.Selection.Path
import AirInquiry.Selection.Object
import Mathlib.Data.List.Nodup

/-!
# Selected paths are registered

A catalog registers a route of fields from a table if every field on it belongs to the table that
the relations in front of it lead to (`Catalog.Registers`). Listing the fields of a table gives only
paths that lead along registered routes, whatever the object is from which the marks are read
(`FieldChoice.leads_of_ofObject`).

A path is text. The names along it are found by cutting it at its points and taking off blanks and
indices (`PathTree.partName`), and a path leads along a route if the names along it, as far as there
are any, are those of the route (`FieldChoice.Leads`). The table and field names of the catalog are
names, so no field can smuggle a point or a bracket into a path (`Catalog.IsNamed`).
-/

set_option autoImplicit false
set_option relaxedAutoImplicit false

namespace AirInquiry

open GraphQL (Name isName isNameRest)

/-! ### Registered routes -/

namespace Catalog

/-- The names of all tables and fields are names of the query language. -/
structure IsNamed (catalog : Catalog) : Prop where
  tables : ∀ table ∈ catalog.tables, isName table.name = true
  fields : ∀ table ∈ catalog.tables, ∀ field ∈ table.fields, isName field.name = true

/-- In every table, the names of the fields are pairwise distinct names of the query language. -/
structure NamesFields (catalog : Catalog) : Prop where
  isName : ∀ table ∈ catalog.tables, ∀ field ∈ table.fields, isName field.name = true
  nodup : ∀ table ∈ catalog.tables, (table.fields.map TableField.name).Nodup

/-- A route of fields from a table along its relations. -/
inductive Registers (catalog : Catalog) : String → List String → Prop where
  | field {name : String} {table : Table} {field : TableField}
      (htable : catalog.get? name = some table) (hfield : field ∈ table.fields) :
      Registers catalog name [field.name]
  | related {name target : String} {table : Table} {field : TableField} {rest : List String}
      (htable : catalog.get? name = some table) (hfield : field ∈ table.fields)
      (htarget : field.kind = .object target ∨ field.kind = .list target)
      (hrest : Registers catalog target rest) : Registers catalog name (field.name :: rest)

/-- The fields passed on the way are registered too. -/
theorem Registers.of_isPrefix {catalog : Catalog} {name : String} {route longer : List String}
    (h : catalog.Registers name longer) (hroutes : route <+: longer) (hne : route ≠ []) :
    catalog.Registers name route := by
  induction h generalizing route with
  | field htable hfield =>
    cases route with
    | nil => exact absurd rfl hne
    | cons first rest =>
      obtain ⟨rfl, hrest⟩ := List.cons_prefix_cons.1 hroutes
      rw [List.prefix_nil.1 hrest]
      exact .field htable hfield
  | related htable hfield htarget _ ih =>
    cases route with
    | nil => exact absurd rfl hne
    | cons first rest =>
      obtain ⟨rfl, hrest⟩ := List.cons_prefix_cons.1 hroutes
      cases rest with
      | nil => exact .field htable hfield
      | cons next others => exact .related htable hfield htarget (ih hrest (by simp))

theorem mem_of_get? {catalog : Catalog} {name : String} {table : Table}
    (h : catalog.get? name = some table) : table ∈ catalog.tables ∧ table.name = name := by
  refine ⟨List.mem_of_find?_eq_some h, ?_⟩
  have hname := List.find?_some h
  simpa using hname

variable {catalog : Catalog} {name : String} {table : Table}

theorem NamesFields.isName_of_mem (h : catalog.NamesFields)
    (htable : catalog.get? name = some table) {field : TableField} (hfield : field ∈ table.fields) :
    GraphQL.isName field.name = true :=
  h.isName table (mem_of_get? htable).1 field hfield

theorem NamesFields.eq_of_name_eq (h : catalog.NamesFields)
    (htable : catalog.get? name = some table) {first second : TableField}
    (hfirst : first ∈ table.fields) (hsecond : second ∈ table.fields)
    (hname : first.name = second.name) : first = second :=
  List.inj_on_of_nodup_map (h.nodup table (mem_of_get? htable).1) hfirst hsecond hname

end Catalog

/-! ### Listed paths -/

namespace FieldChoice

open PathTree (partName)

/-- The names of the parts, if all of them are for one, are those of the route. -/
def Leads (parts : List (List Char)) (route : List String) : Prop :=
  ∀ names, parts.mapM partName = some names → names.map Name.text = route

theorem leads_nil : Leads [] [] := by
  intro names hnames
  cases hnames
  rfl

/-- Assumes that one more part is for the name of one more field, or for none. -/
theorem Leads.append {above : List (List Char)} {route : List String} {part : List Char}
    {name : String} (h : Leads above route)
    (hpart : ∀ found, partName part = some found → found.text = name) :
    Leads (above ++ [part]) (route ++ [name]) := by
  intro names hnames
  simp only [List.mapM_append, List.mapM_cons, List.mapM_nil, Option.bind_eq_bind,
    Option.pure_def, Option.bind_some, Option.bind_eq_some_iff, Option.some.injEq] at hnames
  obtain ⟨front, hfront, last, ⟨found, hfound, rfl⟩, rfl⟩ := hnames
  rw [List.map_append, h front hfront, List.map_singleton, hpart found hfound]

theorem leads_childPath {parent name : String} {route : List String} (hname : isName name = true)
    (h : Leads (parentParts parent) route) :
    Leads (parts (childPath parent name)) (route ++ [name]) := by
  rw [parts_childPath parent hname]
  refine h.append fun found hfound ↦ ?_
  rw [PathTree.partName_name hname] at hfound
  cases hfound
  rfl

theorem leads_itemPath {parent name : String} {route : List String} (hname : isName name = true)
    (h : Leads (parentParts parent) route) (index : Nat) :
    Leads (parts (itemPath (childPath parent name) index)) (route ++ [name]) := by
  rw [parts_itemPath parent hname]
  exact h.append fun found hfound ↦ PathTree.text_of_partName_indexed hname hfound

/-- A listing of a table gives only paths that go on from where they start along registered
routes. -/
def ListsRegistered (catalog : Catalog) (name : String)
    (choices : Option Json.Entries → String → List FieldChoice) : Prop :=
  ∀ entries parent route, Leads (parentParts parent) route → ∀ choice ∈ choices entries parent,
    ∃ rest, catalog.Registers name rest ∧ Leads (parts choice.path) (route ++ rest)

section Listing

variable {catalog : Catalog} {related : RelatedChoices} {name : String} {table : Table}
  {field : TableField}

/-- The paths of one item of a list of related rows. -/
theorem registers_of_itemChoices
    (hrelated : ∀ target inner, related target = some inner → ListsRegistered catalog target inner)
    (htable : catalog.get? name = some table) (hfield : field ∈ table.fields)
    (hname : isName field.name = true) {target : String} (hkind : field.kind = .list target)
    {parent : String} {route : List String} (hroute : Leads (parentParts parent) route)
    (entry : Json × Nat) :
    ∀ choice ∈ itemChoices related target (childPath parent field.name) entry,
      ∃ rest, catalog.Registers name rest ∧ Leads (parts choice.path) (route ++ rest) := by
  have hitem := leads_itemPath hname hroute entry.2
  intro choice hchoice
  unfold itemChoices at hchoice
  split at hchoice
  · next entries inner _ hinner =>
    rw [← parentParts_itemPath] at hitem
    obtain ⟨rest, hrest, hleads⟩ := hrelated target inner hinner _ _ _ hitem choice hchoice
    rw [List.append_assoc] at hleads
    exact ⟨_, .related htable hfield (.inr hkind) hrest, hleads⟩
  · cases List.mem_singleton.1 hchoice
    exact ⟨_, .field htable hfield, hitem⟩

/-- The paths of one field. -/
theorem registers_of_fieldChoices
    (hrelated : ∀ target inner, related target = some inner → ListsRegistered catalog target inner)
    (htable : catalog.get? name = some table) (hfield : field ∈ table.fields)
    (hname : isName field.name = true) {parent : String} {route : List String}
    (hroute : Leads (parentParts parent) route) (entries : Option Json.Entries) :
    ∀ choice ∈ fieldChoices related parent entries field,
      ∃ rest, catalog.Registers name rest ∧ Leads (parts choice.path) (route ++ rest) := by
  have hchild := leads_childPath hname hroute
  have hself : ∀ choice : FieldChoice, choice.path = childPath parent field.name →
      ∃ rest, catalog.Registers name rest ∧ Leads (parts choice.path) (route ++ rest) := by
    intro choice hpath
    exact ⟨_, .field htable hfield, by rw [hpath]; exact hchild⟩
  intro choice hchoice
  simp only [fieldChoices] at hchoice
  split at hchoice
  · cases List.mem_singleton.1 hchoice
    exact hself _ rfl
  · next target hkind =>
    split at hchoice
    · next inner hinner =>
      rw [← parentParts_of_isName hname] at hchild
      obtain ⟨rest, hrest, hleads⟩ := hrelated target inner hinner _ _ _ hchild choice hchoice
      rw [List.append_assoc] at hleads
      exact ⟨_, .related htable hfield (.inl hkind) hrest, hleads⟩
    · cases List.mem_singleton.1 hchoice
      exact hself _ rfl
  · next target hkind =>
    split at hchoice
    · obtain ⟨entry, -, hmem⟩ := List.mem_flatMap.1 hchoice
      exact registers_of_itemChoices hrelated htable hfield hname hkind hroute entry choice hmem
    · cases List.mem_singleton.1 hchoice
      exact hself _ rfl

end Listing

theorem listsRegistered_tableChoices {catalog : Catalog} (hnamed : catalog.IsNamed)
    {related : RelatedChoices} {name : String} {table : Table}
    (hrelated : ∀ target inner, related target = some inner → ListsRegistered catalog target inner)
    (htable : catalog.get? name = some table) :
    ListsRegistered catalog name (tableChoices related table) := by
  intro entries parent route hroute choice hchoice
  obtain ⟨field, hfield, hmem⟩ := List.mem_flatMap.1 hchoice
  have hname := hnamed.fields table (Catalog.mem_of_get? htable).1 field hfield
  exact registers_of_fieldChoices hrelated htable hfield hname hroute entries choice hmem

/-- By induction on the relations still to follow. -/
theorem listsRegistered_relatedChoices {catalog : Catalog} (hnamed : catalog.IsNamed)
    (steps : Nat) : ∀ target inner, relatedChoices catalog steps target = some inner →
      ListsRegistered catalog target inner := by
  induction steps with
  | zero =>
    intro target inner h
    cases h
  | succ steps ih =>
    intro target inner h
    simp only [relatedChoices, Option.map_eq_some_iff] at h
    obtain ⟨table, htable, rfl⟩ := h
    exact listsRegistered_tableChoices hnamed ih htable

/-- Every path read from an object leads along a registered route of the table. -/
theorem leads_of_ofObject {catalog : Catalog} (hnamed : catalog.IsNamed) {name : String}
    {value : Json} {choices : List FieldChoice} (h : ofObject catalog name value = some choices) :
    ∀ choice ∈ choices,
      ∃ route, catalog.Registers name route ∧ Leads (parts choice.path) route := by
  simp only [ofObject, Option.bind_eq_bind, Option.pure_def, Option.bind_eq_some_iff,
    Option.some.injEq] at h
  obtain ⟨table, htable, entries, -, rfl⟩ := h
  intro choice hchoice
  have hlists := listsRegistered_tableChoices hnamed
    (listsRegistered_relatedChoices hnamed Catalog.relationLimit) htable
  exact hlists (some entries) "" [] leads_nil choice hchoice

/-- Marking the identifier changes no path and adds at most the identifier. -/
theorem path_of_mem_withIdentifier {fields : List FieldChoice} {choice : FieldChoice}
    (h : choice ∈ withIdentifier fields) :
    choice.path = identifierName ∨ ∃ field ∈ fields, choice.path = field.path := by
  unfold withIdentifier at h
  split at h
  · split at h
    · next index _ =>
      obtain ⟨position, hposition, rfl⟩ := List.mem_iff_getElem.1 h
      rw [List.length_modify] at hposition
      refine .inr ⟨fields[position], List.getElem_mem hposition, ?_⟩
      rw [List.getElem_modify]
      split <;> rfl
    · rcases List.mem_cons.1 h with rfl | h
      · exact .inl rfl
      · exact .inr ⟨choice, h, rfl⟩
  · exact .inr ⟨choice, h, rfl⟩

theorem leads_identifier : Leads (parts identifierName) [identifierName] := by
  have hchild : Leads (parts (childPath "" identifierName)) ([] ++ [identifierName]) :=
    leads_childPath (by decide) leads_nil
  exact hchild

end FieldChoice

end AirInquiry
