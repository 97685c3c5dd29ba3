import AirInquiry.Catalog.ChoiceSchema
import AirInquiry.Proofs.Json.Conformance
import AirInquiry.Proofs.Selection.Leaves
import AirInquiry.Proofs.Selection.Registered

/-!
# What a catalog offers to select

The schema for selecting from a table offers routes along relations to fields with a value of their
own (`Catalog.Offers`), and whatever is marked in a value that conforms to the schema is offered
(`Catalog.offers_of_marks`). An offered route has at most one field more than the relations it may
follow, and where the names of fields are distinct no offered route goes on along another one
(`Catalog.Offers.length_le`, `Catalog.Offers.eq_of_isPrefix`).

So a tree that ends on offered routes only has a selection that fits the catalog: what has a value
of its own is selected as a whole, and of a related table some fields are
(`Catalog.fits_selection`).
-/

set_option autoImplicit false
set_option relaxedAutoImplicit false

namespace AirInquiry

open GraphQL (Name Selection)
open Json (Marks)

/-! ### What a schema offers -/

/-- The table that a field leads to, unless it has a value of its own. -/
def FieldContent.target? : FieldContent → Option String
  | .scalar => none
  | .object target => some target
  | .list target => some target

namespace Catalog

/-- A route that a selection may mark: it follows at most the given number of relations and ends in
a field with a value of its own. -/
inductive Offers (catalog : Catalog) : Nat → String → List String → Prop where
  | scalar {steps : Nat} {name : String} {table : Table} {field : TableField}
      (htable : catalog.get? name = some table) (hfield : field ∈ table.fields)
      (hkind : field.kind = .scalar) : Offers catalog steps name [field.name]
  | related {steps : Nat} {name target : String} {table : Table} {field : TableField}
      {rest : List String} (htable : catalog.get? name = some table)
      (hfield : field ∈ table.fields) (hkind : field.kind.target? = some target)
      (hrest : Offers catalog steps target rest) :
      Offers catalog (steps + 1) name (field.name :: rest)

theorem Offers.length_le {catalog : Catalog} {steps : Nat} {name : String} {route : List String}
    (h : catalog.Offers steps name route) : route.length ≤ steps + 1 := by
  induction h with
  | scalar => simp
  | related _ _ _ _ ih => simpa using ih

section Schema

open Json.Schema

variable {related : String → Option Json} {field : TableField} {schema value : Json}

/-- What conforms to the schema of a field: a truth value, a related row or null, or a list of
related rows. -/
theorem conforms_of_fieldSchema (hschema : fieldSchema related field = some schema)
    (h : accepts schema value = true) :
    (field.kind = .scalar ∧ ∃ mark, value = .bool mark) ∨
      (∃ target row, field.kind = .object target ∧ related target = some row ∧
        (accepts row value = true ∨ value = .null)) ∨
      ∃ target row items, field.kind = .list target ∧ related target = some row ∧
        value = .array items ∧ ∀ item ∈ items, accepts row item = true := by
  rw [fieldSchema] at hschema
  split at hschema
  · next hkind =>
    cases hschema
    simp [accepts, keywordsAccept, isOfTypes] at h
    exact .inl ⟨hkind, exists_eq_bool_of_isOfType h⟩
  · next target hkind =>
    obtain ⟨row, hrow, rfl⟩ := Option.map_eq_some_iff.1 hschema
    simp [accepts, keywordsAccept, alternativesAccept, anyAccepts, isOfTypes] at h
    exact .inr (.inl ⟨target, row, hkind, hrow, h.imp_right eq_null_of_isOfType⟩)
  · next target hkind =>
    obtain ⟨row, hrow, rfl⟩ := Option.map_eq_some_iff.1 hschema
    simp [accepts, keywordsAccept, isOfTypes] at h
    obtain ⟨items, rfl⟩ := exists_eq_array_of_isOfType h.2
    exact .inr (.inr ⟨target, row, items, hkind, hrow, rfl, h.1⟩)

/-- What conforms to the schema of a table is an object, and what stands in it under a key conforms
to the schema of a field of this name. -/
theorem conforms_of_rowSchema {table : Table} (h : accepts (rowSchema related table) value = true) :
    ∃ entries : Json.Entries, value = .object entries ∧
      ∀ key inner, entries.get? key = some inner → ∃ field ∈ table.fields, field.name = key ∧
        ∃ schema, fieldSchema related field = some schema ∧ accepts schema inner = true := by
  obtain ⟨entries, rfl, hentries⟩ := exists_schema_of_accepts h
  refine ⟨entries, rfl, fun key inner hinner ↦ ?_⟩
  obtain ⟨schema, hmem, hschema⟩ := hentries key inner hinner
  obtain ⟨field, hfield, hoffered⟩ :=
    List.mem_filterMap.1 (Json.Entries.mem_of_mem_ofList hmem)
  obtain ⟨offered, hsome, heq⟩ := Option.map_eq_some_iff.1 hoffered
  cases heq
  exact ⟨field, hfield, rfl, schema, hsome, hschema⟩

end Schema

section Marked

open Json.Schema (accepts)

variable {catalog : Catalog} {name : String} {table : Table}

/-- Assumes that what is marked in a related row is offered with one relation less. -/
theorem offers_of_rowSchema {steps : Nat} {value : Json} {route : List String}
    (hrelated : ∀ {target row value route}, relatedSchema catalog steps target = some row →
      accepts row value = true → Marks value route →
        ∃ less, steps = less + 1 ∧ catalog.Offers less target route)
    (htable : catalog.get? name = some table)
    (hvalue : accepts (rowSchema (relatedSchema catalog steps) table) value = true)
    (hmarks : Marks value route) : catalog.Offers steps name route := by
  obtain ⟨entries, rfl, hentries⟩ := conforms_of_rowSchema hvalue
  cases hmarks with
  | @under _ key inner rest hkey hinner =>
    obtain ⟨field, hfield, rfl, schema, hschema, haccepts⟩ := hentries key inner hkey
    rcases conforms_of_fieldSchema hschema haccepts with ⟨hkind, mark, rfl⟩ |
      ⟨target, row, hkind, hrow, hrowValue | rfl⟩ | ⟨target, row, items, hkind, hrow, rfl, hitems⟩
    · cases hinner
      exact .scalar htable hfield hkind
    · obtain ⟨less, rfl, hrest⟩ := hrelated hrow hrowValue hinner
      exact .related htable hfield (by rw [hkind]; rfl) hrest
    · cases hinner
    · cases hinner with
      | inside hitem hinner =>
        obtain ⟨less, rfl, hrest⟩ := hrelated hrow (hitems _ hitem) hinner
        exact .related htable hfield (by rw [hkind]; rfl) hrest

/-- By induction on the relations still to follow. -/
theorem offers_of_relatedSchema (steps : Nat) {target : String} {row value : Json}
    {route : List String} (hrow : relatedSchema catalog steps target = some row)
    (hvalue : accepts row value = true) (hmarks : Marks value route) :
    ∃ less, steps = less + 1 ∧ catalog.Offers less target route := by
  induction steps generalizing target row value route with
  | zero => cases hrow
  | succ steps ih =>
    obtain ⟨table, htable, rfl⟩ := Option.map_eq_some_iff.1 hrow
    exact ⟨steps, rfl, offers_of_rowSchema ih htable hvalue hmarks⟩

/-- What is marked in a value that conforms to the schema of a table is offered. -/
theorem offers_of_marks {schema value : Json} {route : List String}
    (hschema : catalog.choiceSchema name = some schema) (hvalue : accepts schema value = true)
    (hmarks : Marks value route) : catalog.Offers relationLimit name route := by
  obtain ⟨table, htable, rfl⟩ := Option.map_eq_some_iff.1 hschema
  exact offers_of_rowSchema (offers_of_relatedSchema relationLimit) htable hvalue hmarks

end Marked

section Offers

variable {catalog : Catalog} {name : String} {table : Table} {field : TableField} {steps : Nat}

/-- An offered route starts with a field of a known table. -/
theorem Offers.exists_field {route : List String} (h : catalog.Offers steps name route) :
    ∃ table, catalog.get? name = some table ∧
      ∃ field ∈ table.fields, ∃ rest, route = field.name :: rest := by
  cases h with
  | scalar htable hfield _ => exact ⟨_, htable, _, hfield, _, rfl⟩
  | related htable hfield _ _ => exact ⟨_, htable, _, hfield, _, rfl⟩

/-- The names of the fields being distinct, an offered route that starts with the name of a field
ends there if the field has a value of its own, and is offered by the related table otherwise. -/
theorem Offers.of_cons (hcatalog : catalog.NamesFields) (htable : catalog.get? name = some table)
    (hfield : field ∈ table.fields) {rest : List String}
    (h : catalog.Offers steps name (field.name :: rest)) :
    field.kind = .scalar ∧ rest = [] ∨
      ∃ target less, field.kind.target? = some target ∧ catalog.Offers less target rest := by
  have hsame : ∀ {other : Table} {found : TableField}, catalog.get? name = some other →
      found ∈ other.fields → found.name = field.name → found = field := by
    intro other found hother hfound hname
    rw [htable] at hother
    cases hother
    exact hcatalog.eq_of_name_eq htable hfound hfield hname
  generalize hroute : field.name :: rest = route at h
  cases h with
  | scalar hother hfound hkind =>
    obtain ⟨hname, hrest⟩ := List.cons.inj hroute
    rw [hsame hother hfound hname.symm] at hkind
    exact .inl ⟨hkind, hrest⟩
  | related hother hfound hkind hrest =>
    obtain ⟨hname, rfl⟩ := List.cons.inj hroute
    rw [hsame hother hfound hname.symm] at hkind
    exact .inr ⟨_, _, hkind, hrest⟩

/-- An offered route is one of names. -/
theorem Offers.exists_names (hcatalog : catalog.NamesFields) {route : List String}
    (h : catalog.Offers steps name route) :
    ∃ path : List Name, path ≠ [] ∧ path.map Name.text = route := by
  induction h with
  | scalar htable hfield _ =>
    exact ⟨[⟨_, hcatalog.isName_of_mem htable hfield⟩], List.cons_ne_nil _ _, rfl⟩
  | related htable hfield _ _ ih =>
    obtain ⟨path, -, rfl⟩ := ih
    exact ⟨⟨_, hcatalog.isName_of_mem htable hfield⟩ :: path, List.cons_ne_nil _ _, rfl⟩

/-- No offered route goes on along another one. -/
theorem Offers.eq_of_isPrefix (hcatalog : catalog.NamesFields) {more : Nat}
    {short long : List String} (hshort : catalog.Offers steps name short)
    (hlong : catalog.Offers more name long) (h : short <+: long) : short = long := by
  induction hshort generalizing more long with
  | scalar htable hfield hkind =>
    obtain ⟨rest, rfl⟩ := h
    rcases hlong.of_cons hcatalog htable hfield with ⟨-, hrest⟩ | ⟨target, less, htarget, -⟩
    · exact congrArg (List.cons _) hrest.symm
    · rw [hkind] at htarget
      cases htarget
  | related htable hfield hkind _ ih =>
    obtain ⟨behind, rfl⟩ := h
    rcases hlong.of_cons hcatalog htable hfield with ⟨hscalar, -⟩ | ⟨target, less, htarget, hrest⟩
    · rw [hscalar] at hkind
      cases hkind
    · rw [hkind] at htarget
      cases htarget
      exact congrArg (List.cons _) (ih hrest (List.prefix_append _ _))

end Offers

/-- The selected fields belong to the table. Those with a value of their own have no inner fields,
and the others have some, which fit the related table in the same way. -/
inductive Fits (catalog : Catalog) : String → List Selection → Prop where
  | intro {name : String} {table : Table} {selections : List Selection}
      (htable : catalog.get? name = some table)
      (hfields : ∀ selected ∈ selections, ∃ field ∈ table.fields,
        field.name = selected.name.text ∧ (selected.inner = [] ↔ field.kind = .scalar))
      (hrelated : ∀ selected ∈ selections, ∀ field ∈ table.fields,
        field.name = selected.name.text → ∀ target, field.kind.target? = some target →
          Fits catalog target selected.inner) : Fits catalog name selections

section Trees

variable {catalog : Catalog} (hcatalog : catalog.NamesFields) {name : String} {table : Table}
  (htable : catalog.get? name = some table)

include hcatalog htable

section Child

variable {field : TableField} (hfield : field ∈ table.fields) {tree : PathTree}
  (hends : ∀ path, PathTree.Ends path tree →
    ∃ steps, catalog.Offers steps name (field.name :: path.map Name.text))

include hfield hends

/-- Where a tree under a field ends decides what the field holds. -/
theorem target_of_ends {path : List Name} (hpath : PathTree.Ends path tree) :
    field.kind = .scalar ∧ path = [] ∨ ∃ target less, field.kind.target? = some target ∧
      catalog.Offers less target (path.map Name.text) := by
  obtain ⟨steps, hroute⟩ := hends path hpath
  rcases hroute.of_cons hcatalog htable hfield with ⟨hkind, hnil⟩ | hrelated
  · exact .inl ⟨hkind, List.map_eq_nil_iff.1 hnil⟩
  · exact .inr hrelated

theorem isEmpty_iff_scalar : tree.isEmpty = true ↔ field.kind = .scalar := by
  constructor
  · intro hempty
    have hend : PathTree.Ends [] tree := hempty
    rcases target_of_ends hcatalog htable hfield hends hend with
      ⟨hscalar, -⟩ | ⟨target, less, -, hroute⟩
    · exact hscalar
    · obtain ⟨_, _, _, _, _, hnil⟩ := hroute.exists_field
      cases hnil
  · intro hscalar
    obtain ⟨path, hpath⟩ := tree.exists_ends
    rcases target_of_ends hcatalog htable hfield hends hpath with
      ⟨-, rfl⟩ | ⟨target, less, htarget, -⟩
    · exact hpath
    · rw [hscalar] at htarget
      cases htarget

/-- Under a relation, a tree ends on routes that the related table offers. -/
theorem offers_of_ends {target : String} (htarget : field.kind.target? = some target)
    {path : List Name} (hpath : PathTree.Ends path tree) :
    ∃ less, catalog.Offers less target (path.map Name.text) := by
  rcases target_of_ends hcatalog htable hfield hends hpath with
    ⟨hscalar, -⟩ | ⟨other, less, hother, hroute⟩
  · rw [hscalar] at htarget
    cases htarget
  · rw [htarget] at hother
    cases hother
    exact ⟨less, hroute⟩

end Child

/-- Assumes that the tree ends only on offered routes. By induction on the tree. -/
theorem fits_selection {tree : PathTree}
    (hends : ∀ path, path ≠ [] → PathTree.Ends path tree →
      ∃ steps, catalog.Offers steps name (path.map Name.text)) :
    catalog.Fits name tree.selection := by
  induction tree using PathTree.induct generalizing name table with
  | node children ih =>
    have hoffers : ∀ child ∈ children, ∀ field ∈ table.fields, field.name = child.1.text →
        ∀ path, PathTree.Ends path child.2 →
          ∃ steps, catalog.Offers steps name (field.name :: path.map Name.text) := by
      intro child hmem field _ hname path hpath
      rw [hname]
      exact hends (child.1 :: path) (List.cons_ne_nil _ _) ⟨child.2, hmem, hpath⟩
    refine .intro htable (fun selected hselected ↦ ?_)
      fun selected hselected field hfield hname target htarget ↦ ?_
    · obtain ⟨child, hmem, rfl⟩ := PathTree.mem_selection.1 hselected
      obtain ⟨path, hpath⟩ := child.2.exists_ends
      obtain ⟨steps, hroute⟩ := hends (child.1 :: path) (List.cons_ne_nil _ _) ⟨_, hmem, hpath⟩
      obtain ⟨other, hother, field, hfield, rest, hnames⟩ := hroute.exists_field
      rw [htable] at hother
      cases hother
      have hname : field.name = child.1.text := (List.cons.inj hnames).1.symm
      have hinner : (Selection.field child.1 child.2.selection).inner = [] ↔
          child.2.isEmpty = true := PathTree.selection_eq_nil_iff
      refine ⟨field, hfield, hname, ?_⟩
      rw [hinner]
      exact isEmpty_iff_scalar hcatalog htable hfield (hoffers child hmem field hfield hname)
    · obtain ⟨child, hmem, rfl⟩ := PathTree.mem_selection.1 hselected
      have hrest : ∀ path, PathTree.Ends path child.2 →
          ∃ less, catalog.Offers less target (path.map Name.text) := fun path ↦
        offers_of_ends hcatalog htable hfield (hoffers child hmem field hfield hname) htarget
      obtain ⟨path, hpath⟩ := child.2.exists_ends
      obtain ⟨less, hroute⟩ := hrest path hpath
      obtain ⟨related, hrelated, -⟩ := hroute.exists_field
      exact ih child hmem hrelated fun path _ ↦ hrest path

end Trees

end Catalog

end AirInquiry
