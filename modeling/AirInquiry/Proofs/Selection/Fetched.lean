import AirInquiry.Lookup.Selection
import AirInquiry.Proofs.Peer.Turns
import AirInquiry.Proofs.Query.RoundTrip
import AirInquiry.Proofs.Selection.Marked

/-!
# A query fetches what is marked

The schema that a selection is asked for, the listing that is read from the reply, and the query
that is built from the listing agree: whatever conforming value the reply is, the query fetches
exactly what is marked in it, and the identifier (`fetches_marked`). Nothing else is selected, since
the tree of the selected paths ends on offered routes only (`ends_withIdentifier`).
-/

set_option autoImplicit false
set_option relaxedAutoImplicit false

namespace AirInquiry

open GraphQL (Name Selection isName)

section Selected

variable {catalog : Catalog} {name : String} {choices : List FieldChoice}
  {marked : List String → Prop} (hcatalog : catalog.NamesFields)
  (hagrees : FieldChoice.Agrees choices [] marked)
  (hidentifier : catalog.Offers Catalog.relationLimit name [identifierName])
  (hmarked : ∀ route, marked route → catalog.Offers Catalog.relationLimit name route)

include hcatalog hagrees hidentifier hmarked

/-- The tree of what is selected ends on the same routes: these are offered, so none goes on along
another one. -/
theorem ends_withIdentifier {path : List Name} (hpath : path ≠ []) :
    PathTree.Ends path (PathTree.ofSelection (FieldChoice.withIdentifier choices)) ↔
      (∃ choice ∈ choices, choice.selected = true) ∧
        (path.map Name.text = [identifierName] ∨ marked (path.map Name.text)) := by
  have hoffered : ∀ choice ∈ FieldChoice.withIdentifier choices, choice.selected = true →
      ∀ names, PathTree.namesOf choice.path = some names →
        catalog.Offers Catalog.relationLimit name (names.map Name.text) := by
    intro choice hchoice hselected names hnames
    rcases ((FieldChoice.selects_iff hagrees).1 ⟨choice, hchoice, hselected, hnames⟩).2 with
      heq | hroute
    · rwa [heq]
    · exact hmarked _ hroute
  cases path with
  | nil => exact absurd rfl hpath
  | cons first rest =>
    rw [PathTree.ends_ofSelection, FieldChoice.selects_iff hagrees]
    intro one hone honeSelected other hother hotherSelected short long hshort hlong hprefixed
    have heq := (hoffered one hone honeSelected short hshort).eq_of_isPrefix hcatalog
      (hoffered other hother hotherSelected long hlong) (hprefixed.map Name.text)
    exact List.map_injective_iff.2 Name.text_injective heq

/-- The selection of a query is that of a tree, which ends on the routes that are selected. -/
theorem exists_tree_selectionOf :
    ∃ tree : PathTree, Query.selectionOf (FieldChoice.withIdentifier choices) = tree.selection ∧
      tree.IsDistinct ∧ ∀ path, path ≠ [] → (PathTree.Ends path tree ↔
        path.map Name.text = [identifierName] ∨ marked (path.map Name.text)) := by
  by_cases hany : ∃ choice ∈ choices, choice.selected = true
  · refine ⟨PathTree.ofSelection (FieldChoice.withIdentifier choices), ?_,
      PathTree.isDistinct_ofSelection _, fun path hpath ↦ ?_⟩
    · have hends := (ends_withIdentifier hcatalog hagrees hidentifier hmarked
        (List.cons_ne_nil Query.identifier [])).2 ⟨hany, .inl rfl⟩
      have hne : ¬ (PathTree.ofSelection (FieldChoice.withIdentifier choices)).isEmpty = true :=
        fun hempty ↦ absurd ((PathTree.ends_of_isEmpty hempty).1 hends) (List.cons_ne_nil _ _)
      simp only [Query.selectionOf, if_neg hne]
    · rw [ends_withIdentifier hcatalog hagrees hidentifier hmarked hpath, and_iff_right hany]
  · have hunmarked : ∀ route, ¬ marked route := by
      intro route hroute
      obtain ⟨choice, hchoice, hselected, -⟩ := hagrees.2 route hroute
      exact hany ⟨choice, hchoice, hselected⟩
    have hempty : (PathTree.ofSelection (FieldChoice.withIdentifier choices)).isEmpty = true := by
      obtain ⟨path, hpath⟩ :=
        (PathTree.ofSelection (FieldChoice.withIdentifier choices)).exists_ends
      by_cases hnil : path = []
      · rwa [hnil] at hpath
      · have hends := ends_withIdentifier hcatalog hagrees hidentifier hmarked hnil
        exact absurd (hends.1 hpath).1 hany
    refine ⟨.node [(Query.identifier, .empty)], ?_,
      PathTree.isDistinct_insert [Query.identifier] PathTree.isDistinct_empty, fun path hpath ↦ ?_⟩
    · simp only [Query.selectionOf, if_pos hempty]
      rfl
    · have hidentified : path.map Name.text = [Query.identifier].map Name.text ↔
          path = [Query.identifier] := (List.map_injective_iff.2 Name.text_injective).eq_iff
      rw [List.map_singleton] at hidentified
      change path.map Name.text = [identifierName] ↔ _ at hidentified
      rw [hidentified, or_iff_left (hunmarked _)]
      cases path with
      | nil => exact absurd rfl hpath
      | cons first rest =>
        have hend : PathTree.Ends rest .empty ↔ rest = [] := PathTree.ends_of_isEmpty rfl
        simp [PathTree.Ends, PathTree.children, hend]

end Selected

/-- Whatever conforming value the model replies with, exactly what is marked in it is fetched, and
the identifier. Assumes that the identifier is a field with a value of its own, and that lists have
no more items than there are words of 64 bits. -/
theorem fetches_marked {catalog : Catalog} (hcatalog : catalog.NamesFields) {name : String}
    {table : Table} (htable : catalog.get? name = some table)
    (hidentifier : ∃ field ∈ table.fields, field.name = identifierName ∧ field.kind = .scalar)
    {schema value : Json} (hschema : catalog.choiceSchema name = some schema)
    (hvalue : Json.Schema.accepts schema value = true) (hwithin : value.ListsWithin Text.wordLimit)
    (limit : Nat) (question description : String) (constraints : Option Constraints) :
    ∃ fields, (Lookup.select catalog limit question description name).Reaches
        [.complete (Lookup.selectionRequest limit question description name schema) (.ok value)]
        (.done (some fields)) ∧
      ∃ selection, (Query.build name fields constraints).selection = selection ∧
        (∀ route, route ∈ Selection.allRoutes selection ↔
          route = [identifierName] ∨ value.Marks route) ∧
        (∀ route ∈ Selection.allRoutes selection, route.length ≤ 3) ∧
        catalog.Fits name selection ∧ Selection.IsUnrepeated selection ∧
        (isName name = true → ∃ arguments,
          GraphQL.Grammar.definitionsOf? (Query.build name fields constraints).text =
            some [.operation .query none [] [] [.field none name arguments []
              (Selection.trees selection)]]) := by
  obtain ⟨field, hfield, hname, hkind⟩ := hidentifier
  have hoffered : catalog.Offers Catalog.relationLimit name [identifierName] := by
    rw [← hname]
    exact .scalar htable hfield hkind
  have hmarked : ∀ route, value.Marks route → catalog.Offers Catalog.relationLimit name route :=
    fun route ↦ Catalog.offers_of_marks hschema hvalue
  obtain ⟨choices, hread, hagrees⟩ :=
    FieldChoice.exists_ofObject_agrees hcatalog hschema hvalue hwithin
  obtain ⟨tree, htree, hdistinct, hends⟩ :=
    exists_tree_selectionOf hcatalog hagrees hoffered hmarked
  have hoffers : ∀ route, route = [identifierName] ∨ value.Marks route →
      catalog.Offers Catalog.relationLimit name route := by
    rintro route (rfl | hroute)
    · exact hoffered
    · exact hmarked route hroute
  have hroutes : ∀ route, route ∈ Selection.allRoutes tree.selection ↔
      route = [identifierName] ∨ value.Marks route := by
    intro route
    rw [tree.mem_allRoutes_selection]
    constructor
    · rintro ⟨path, hpath, hend, rfl⟩
      exact (hends path hpath).1 hend
    · intro hroute
      obtain ⟨path, hpath, rfl⟩ := (hoffers route hroute).exists_names hcatalog
      exact ⟨path, hpath, (hends path hpath).2 hroute, rfl⟩
  refine ⟨FieldChoice.withIdentifier choices, ?_, tree.selection, htree, hroutes,
    fun route hroute ↦ (hoffers route ((hroutes route).1 hroute)).length_le, ?_,
    PathTree.isUnrepeated_selection hdistinct, fun hisName ↦ ?_⟩
  · have hreply : Lookup.selectionOfReply catalog name (.ok value) =
        some (FieldChoice.withIdentifier choices) := by
      rw [Lookup.selectionOfReply, hread, Option.map_some]
    rw [Lookup.select, hschema, ← hreply]
    exact .complete (.ok value) (.refl _)
  · exact Catalog.fits_selection hcatalog htable fun path hpath hend ↦
      ⟨_, hoffers _ ((hends path hpath).1 hend)⟩
  · rw [← htree]
    exact ⟨_, GraphQL.Query.definitionsOf?_text hisName (Query.fieldsWritable_build name _ _)
      (Query.selectionOf_ne_nil _)⟩

/-- Provinces have districts, and a district has its province. -/
def Catalog.ofProvinces : Catalog where
  tables := [
    ⟨"districts", "", [⟨"name", "", .scalar⟩, ⟨"province", "", .object "provinces"⟩]⟩,
    ⟨"provinces", "", [⟨"id", "", .scalar⟩, ⟨"name", "", .scalar⟩,
      ⟨"districts", "", .list "districts"⟩]⟩]

/-- The names of districts and the identifier of the province of one of them are marked. -/
def Catalog.provinceMarks : Json :=
  .object [
    ("districts", .array [
      .object [("name", .bool true),
        ("province", .object [("id", .bool true), ("name", .bool false)])],
      .object [("name", .bool true), ("province", .null)]]),
    ("id", .bool false), ("name", .bool false)]

/-- The lists on the way are not seen in what is fetched. -/
theorem fetches_marked_provinces :
    ∃ schema, Catalog.ofProvinces.choiceSchema "provinces" = some schema ∧
      Json.Schema.accepts schema Catalog.provinceMarks = true ∧
      Catalog.provinceMarks.ListsWithin Text.wordLimit ∧
      ∃ fields, (Lookup.select Catalog.ofProvinces 100 "" "" "provinces").Reaches
          [.complete (Lookup.selectionRequest 100 "" "" "provinces" schema)
            (.ok Catalog.provinceMarks)] (.done (some fields)) ∧
        ["districts", "province", "id"] ∈
          Selection.allRoutes (Query.build "provinces" fields none).selection := by
  have hcatalog : Catalog.ofProvinces.NamesFields := ⟨by decide, by decide⟩
  have haccepts : ∀ schema, Catalog.ofProvinces.choiceSchema "provinces" = some schema →
      Json.Schema.accepts schema Catalog.provinceMarks = true := by
    rintro schema ⟨⟩
    rfl
  have hwithin : Catalog.provinceMarks.ListsWithin Text.wordLimit := by
    simp [Catalog.provinceMarks, Json.ListsWithin, Json.EntriesWithin, Json.ItemsWithin]
    decide
  have hmarks : Catalog.provinceMarks.Marks ["districts", "province", "id"] :=
    .under rfl (.inside (.head _) (.under rfl (.under rfl .here)))
  have htable : Catalog.ofProvinces.get? "provinces" = Catalog.ofProvinces.tables[1]? := rfl
  obtain ⟨fields, hreaches, selection, rfl, hroutes, -⟩ := fetches_marked hcatalog htable
    ⟨_, .head _, rfl, rfl⟩ rfl (haccepts _ rfl) hwithin 100 "" "" none
  exact ⟨_, rfl, haccepts _ rfl, hwithin, fields, hreaches, (hroutes _).2 (.inr hmarks)⟩

end AirInquiry
