import AirInquiry.Proofs.GraphQL.Name
import AirInquiry.Proofs.Query.RoundTrip
import AirInquiry.Proofs.Selection.Grouped
import AirInquiry.Proofs.Text.Pieces

/-!
# The shape of a selection

The selection of a query is the tree of the selected paths and nothing else (`IsTreeOf`): its fields
lie on the ways along these paths, it ends on the paths that no other one goes on from, and no field
is selected twice at one place. Everywhere the fields that end come first, and in either group the
fields stand in the order of their first uses (`Query.exists_isTreeOf_build`). What does not change
the names along the selected paths, or only repeats some of them, does not change the text.
-/

set_option autoImplicit false
set_option relaxedAutoImplicit false

namespace AirInquiry

open GraphQL (Name Selection isName)

/-! ### Trees of paths -/

namespace GraphQL.Selection

/-- A route leads from selected fields to the fields that are selected at its end. -/
def Reaches : List String → List Selection → List Selection → Prop
  | [], selections, level => level = selections
  | name :: route, selections, level =>
    ∃ selected ∈ selections, selected.name.text = name ∧ Reaches route selected.inner level

/-- Selected fields are the tree of paths. -/
structure IsTreeOf (paths : List (List String)) (selections : List Selection) : Prop where
  /-- There are exactly the fields on the ways along the paths. -/
  fields : ∀ route, route ≠ [] →
    ((∃ level, Reaches route selections level) ↔ ∃ path ∈ paths, route <+: path)
  /-- Nothing is selected exactly at the ends of the paths from which none of them goes on. -/
  ends : ∀ route, route ≠ [] →
    (Reaches route selections [] ↔ route ∈ paths ∧ ∀ path ∈ paths, route <+: path → path = route)
  /-- At no place there are two fields of one name. -/
  distinct : ∀ route level, Reaches route selections level → (level.map name).Nodup
  /-- At every place the fields without fields inside come first, and in either group a field that
  a path uses earlier. -/
  inOrder : ∀ route level, Reaches route selections level → level.Pairwise fun first second ↦
    first.inner = [] ∧ second.inner ≠ [] ∨ (first.inner = [] ↔ second.inner = []) ∧
      PathTree.firstUse paths (route ++ [first.name.text]) <
        PathTree.firstUse paths (route ++ [second.name.text])

end GraphQL.Selection

namespace PathTree

open GraphQL.Selection (Reaches IsTreeOf)

/-- A route of the tree of paths leads to the tree of what is behind it. By induction on the
route. -/
theorem reaches_ofPaths {paths : List (List Name)} {route : List String}
    {level : List Selection} :
    Reaches route (ofPaths paths).selection level ↔
      ∃ names : List Name, names.map Name.text = route ∧
        (names ≠ [] → ∃ path ∈ paths, names <+: path) ∧
        level = (ofPaths (behind names paths)).selection := by
  induction route generalizing paths with
  | nil => simp [Reaches, behind_nil]
  | cons text route ih =>
    simp only [Reaches, mem_selection, children_ofPaths, List.mem_map]
    constructor
    · rintro ⟨_, ⟨_, ⟨name, hname, rfl⟩, rfl⟩, rfl, hreaches⟩
      obtain ⟨names, rfl, hused, rfl⟩ := ih.1 hreaches
      refine ⟨name :: names, rfl, fun _ ↦ ?_, by rw [behind_cons name names]⟩
      cases names with
      | nil =>
        obtain ⟨rest, hrest⟩ := mem_firstNames.1 hname
        exact ⟨_, hrest, rest, rfl⟩
      | cons next others =>
        obtain ⟨path, hpath, hprefix⟩ := hused (List.cons_ne_nil _ _)
        exact ⟨name :: path, mem_behind.1 hpath, List.cons_prefix_cons.2 ⟨rfl, hprefix⟩⟩
    · rintro ⟨names, hnames, hused, rfl⟩
      obtain ⟨name, others, rfl, rfl, rfl⟩ := List.map_eq_cons_iff.1 hnames
      obtain ⟨_, hpath, rest, rfl⟩ := hused (List.cons_ne_nil _ _)
      refine ⟨_, ⟨_, ⟨name, mem_firstNames.2 ⟨others ++ rest, hpath⟩, rfl⟩, rfl⟩, rfl, ih.2 ?_⟩
      refine ⟨others, rfl, fun _ ↦ ⟨others ++ rest, mem_behind.2 hpath, rest, rfl⟩, ?_⟩
      rw [behind_cons]

theorem selection_ofPaths_eq_nil_iff {paths : List (List Name)} :
    (ofPaths paths).selection = [] ↔ ∀ path ∈ paths, path = [] :=
  selection_eq_nil_iff.trans isEmpty_ofPaths

/-- The selection of the tree of paths is the tree of these paths. -/
theorem isTreeOf_ofPaths (paths : List (List Name)) :
    IsTreeOf (paths.map (List.map Name.text)) (ofPaths paths).selection where
  fields route hroute := by
    constructor
    · rintro ⟨level, hreaches⟩
      obtain ⟨names, rfl, hused, -⟩ := reaches_ofPaths.1 hreaches
      obtain ⟨path, hpath, hprefix⟩ := hused fun hnil ↦ hroute (by rw [hnil, List.map_nil])
      exact ⟨_, List.mem_map_of_mem hpath, hprefix.map Name.text⟩
    · rintro ⟨_, hmem, hprefix⟩
      obtain ⟨path, hpath, rfl⟩ := List.mem_map.1 hmem
      obtain ⟨names, hnames, rfl⟩ := List.prefix_map_iff.1 hprefix
      exact ⟨_, reaches_ofPaths.2 ⟨names, rfl, fun _ ↦ ⟨path, hpath, hnames⟩, rfl⟩⟩
  ends route hroute := by
    constructor
    · intro hreaches
      obtain ⟨names, rfl, hused, hnil⟩ := reaches_ofPaths.1 hreaches
      -- Nothing is behind the route in a path that goes along it.
      have hlast : ∀ path ∈ paths, names <+: path → path = names := by
        rintro _ hpath ⟨rest, rfl⟩
        rw [selection_ofPaths_eq_nil_iff.1 hnil.symm rest (mem_behind.2 hpath), List.append_nil]
      obtain ⟨path, hpath, hprefix⟩ := hused fun hnil ↦ hroute (by rw [hnil, List.map_nil])
      refine ⟨?_, fun _ hmem hgoes ↦ ?_⟩
      · rw [← hlast path hpath hprefix]
        exact List.mem_map_of_mem hpath
      · obtain ⟨other, hother, rfl⟩ := List.mem_map.1 hmem
        rw [hlast other hother ((map_prefix_map_iff Name.text_injective).1 hgoes)]
    · rintro ⟨hmem, hlast⟩
      obtain ⟨names, hnames, rfl⟩ := List.mem_map.1 hmem
      refine reaches_ofPaths.2 ⟨names, rfl, fun _ ↦ ⟨names, hnames, List.prefix_rfl⟩, ?_⟩
      refine (selection_ofPaths_eq_nil_iff.2 fun rest hrest ↦ ?_).symm
      have hsame := hlast _ (List.mem_map_of_mem (mem_behind.1 hrest))
        ((List.prefix_append names rest).map Name.text)
      simpa using hsame
  distinct route level hreaches := by
    obtain ⟨names, rfl, -, rfl⟩ := reaches_ofPaths.1 hreaches
    rw [((selection_perm _).map Selection.name).nodup_iff, List.map_map]
    exact map_fst_children_ofPaths _ ▸ nodup_firstNames (behind names paths)
  inOrder route level hreaches := by
    obtain ⟨names, rfl, -, rfl⟩ := reaches_ofPaths.1 hreaches
    have hchildren : ((ofPaths (behind names paths)).children.map Prod.fst).Pairwise
        fun first second ↦
          firstUse paths (names ++ [first]) < firstUse paths (names ++ [second]) := by
      rw [map_fst_children_ofPaths]
      exact pairwise_firstNames_behind names paths
    refine (pairwise_selection hchildren).imp fun {first second} hbefore ↦ ?_
    have huse : ∀ name : Name, firstUse (paths.map (List.map Name.text))
        (names.map Name.text ++ [name.text]) = firstUse paths (names ++ [name]) := by
      intro name
      rw [← firstUse_map Name.text_injective, List.map_append, List.map_singleton]
    rwa [huse, huse]

end PathTree

/-! ### Paths of a selection -/

namespace FieldChoice

/-- What is written along a path, without the blanks around a part and the index that it ends
in. -/
def segments (path : String) : List String :=
  (parts path).map fun part ↦ String.ofList (nameAndIndex (Text.trimChars part)).1

/-- What is written along the selected paths on which only names are written. -/
def namePaths (fields : List FieldChoice) : List (List String) :=
  ((fields.filter (·.selected)).map fun field ↦ segments field.path).filter (·.all isName)

/-- The paths that a query shows, which is the identifier alone if there are none. -/
def shownPaths (fields : List FieldChoice) : List (List String) :=
  if namePaths fields = [] then [[identifierName]] else namePaths fields

end FieldChoice

namespace PathTree

open FieldChoice (segments namePaths shownPaths parts)

/-- The names along the selected paths. -/
def selectedPaths (fields : List FieldChoice) : List (List Name) :=
  (fields.filter (·.selected)).filterMap fun field ↦ namesOf field.path

theorem mapM_ofString?_map_text (names : List Name) :
    (names.map Name.text).mapM Name.ofString? = some names := by
  induction names with
  | nil => rfl
  | cons name rest ih => simp [List.mapM_cons, ih]

/-- Texts are read as names exactly if all of them are names, and then these are their names. -/
theorem map_mapM_ofString? (texts : List String) :
    (texts.mapM Name.ofString?).map (List.map Name.text) =
      Option.guard (fun texts ↦ texts.all isName) texts := by
  by_cases hall : ∀ text ∈ texts, isName text = true
  · have htexts : (texts.pmap Name.mk hall).map Name.text = texts := by simp [List.map_pmap]
    rw [← htexts, mapM_ofString?_map_text, Option.map_some, htexts, Option.guard,
      if_pos (List.all_eq_true.2 hall)]
  · rw [Option.guard, if_neg fun h ↦ hall (List.all_eq_true.1 h), Option.map_eq_none_iff]
    refine Option.eq_none_iff_forall_ne_some.2 fun names hnames ↦ hall fun text htext ↦ ?_
    rw [← map_of_mapM_eq_some Name.text_of_ofString? hnames] at htext
    obtain ⟨name, -, rfl⟩ := List.mem_map.1 htext
    exact name.isName

theorem map_namesOf (path : String) :
    (namesOf path).map (List.map Name.text) =
      Option.guard (fun texts ↦ texts.all isName) (segments path) := by
  rw [← map_mapM_ofString?, segments, List.mapM_map]
  rfl

theorem map_selectedPaths (fields : List FieldChoice) :
    (selectedPaths fields).map (List.map Name.text) = namePaths fields := by
  unfold selectedPaths namePaths
  generalize fields.filter (·.selected) = chosen
  rw [List.map_filterMap, ← List.filterMap_eq_filter, List.filterMap_map]
  exact List.filterMap_congr fun field _ ↦ map_namesOf field.path

theorem ne_nil_of_mem_selectedPaths {fields : List FieldChoice} {path : List Name}
    (h : path ∈ selectedPaths fields) : path ≠ [] := by
  rintro rfl
  obtain ⟨field, -, hnames⟩ := List.mem_filterMap.1 h
  have hsegments := map_namesOf field.path
  rw [hnames, Option.map_some, List.map_nil] at hsegments
  have hnil := (Option.guard_eq_some_iff.1 hsegments.symm).1
  exact Text.splitChars_ne_nil '.' _ (List.map_eq_nil_iff.1 hnil)

/-- The selection of a query is that of the tree of the shown paths. -/
theorem exists_selectionOf_eq (fields : List FieldChoice) :
    ∃ paths : List (List Name), paths.map (List.map Name.text) = shownPaths fields ∧
      Query.selectionOf fields = (ofPaths paths).selection := by
  have htree : ofSelection fields = ofPaths (selectedPaths fields) := rfl
  have hnone : namePaths fields = [] ↔ selectedPaths fields = [] := by
    rw [← map_selectedPaths, List.map_eq_nil_iff]
  rw [shownPaths, if_congr hnone rfl rfl]
  split
  · next hnil =>
    refine ⟨[[Query.identifier]], rfl, ?_⟩
    rw [Query.selectionOf, htree, hnil]
    rfl
  · next hsome =>
    refine ⟨selectedPaths fields, map_selectedPaths fields, ?_⟩
    obtain ⟨path, hpath⟩ := List.exists_mem_of_ne_nil _ hsome
    have hempty : ¬ (ofPaths (selectedPaths fields)).isEmpty = true := fun h ↦
      ne_nil_of_mem_selectedPaths hpath (isEmpty_ofPaths.1 h path hpath)
    simp only [Query.selectionOf, htree, if_neg hempty]

/-- Paths that are repeated do not count. -/
theorem selectionOf_congr {fields others : List FieldChoice}
    (h : (namePaths others).eraseDups = (namePaths fields).eraseDups) :
    Query.selectionOf others = Query.selectionOf fields := by
  have htext := List.map_injective_iff.2 Name.text_injective
  rw [← map_selectedPaths, ← map_selectedPaths, eraseDups_map htext, eraseDups_map htext] at h
  have hpaths := List.map_injective_iff.2 htext h
  have htree : ofPaths (selectedPaths others) = ofPaths (selectedPaths fields) := by
    rw [← ofPaths_eraseDups, hpaths, ofPaths_eraseDups]
  have hselection : ofSelection others = ofSelection fields := htree
  rw [Query.selectionOf, hselection, Query.selectionOf]

end PathTree

/-! ### The text of a selection -/

namespace GraphQL

/-- The members of the selection set that a text is. -/
def Grammar.selectionSetOf? (text : String) : Option (List Grammar.Selection) :=
  (Token.ofText text.toList).bind fun tokens ↦
    match Grammar.enclosed '{' '}' (Grammar.selection tokens.length) tokens with
    | some (members, []) => some members
    | _ => none

/-- The selection set of a query as it is written behind the root field. -/
def Query.block (selections : List Selection) : List Char :=
  ' ' :: '{' :: ("\n    ".toList ++ Text.joinChars [' '] (Selection.texts selections)) ++
    ("\n  ".toList ++ ['}'])

/-- Assumes that something is selected. -/
theorem Query.selectionSetOf?_block {selections : List Selection} (h : selections ≠ []) :
    Grammar.selectionSetOf? (String.ofList (Query.block selections)) =
      some (Selection.trees selections) := by
  have hspells : Spells (Query.block selections)
      (.mark '{' :: Selection.allTokens selections ++ [.mark '}']) :=
    Spells.braced _ _ (forall_mem_of_all (by decide)) (forall_mem_of_all (by decide))
      (Selection.spells_texts selections)
  have hread := Selection.reading_allTokens selections
    (Token.mark '{' :: Selection.allTokens selections ++ [Token.mark '}']).length
    (by simp only [List.cons_append, List.length_cons, List.length_append]; omega) []
  obtain ⟨first, rest, rfl⟩ := List.exists_cons_of_ne_nil h
  have henclosed : Grammar.enclosed '{' '}' _ (.mark '{' :: _) = some (_, []) :=
    Grammar.enclosed_mark hread
  rw [Grammar.selectionSetOf?, String.toList_ofList, hspells.ofText, Option.bind_some]
  simp only [List.cons_append] at henclosed ⊢
  rw [henclosed]
  rfl

/-- The selection set stands behind the root field with its arguments. -/
theorem Query.exists_text_eq (query : Query) : ∃ head, query.text = String.ofList
    ("query \x7b\n  ".toList ++ head ++ Query.block query.selection ++ "\n\x7d".toList) := by
  have hopening : " \x7b\n    ".toList = ' ' :: '{' :: "\n    ".toList := by rfl
  have hclosing : "\n  \x7d\n\x7d".toList = "\n  ".toList ++ '}' :: ['\n', '}'] := by rfl
  have hend : "\n\x7d".toList = ['\n', '}'] := by rfl
  refine ⟨query.head, congrArg String.ofList ?_⟩
  unfold Query.textChars Query.block
  simp only [hopening, hclosing, hend]
  simp only [List.append_assoc, List.cons_append, List.nil_append]

end GraphQL

namespace Query

open FieldChoice (namePaths shownPaths)
open GraphQL.Selection (IsTreeOf trees)

/-- What a query selects is the tree of the shown paths, whatever the table and the constraints are.
Its text has the same selection set for every table and reads back, with the tree inside the root
field, if the table is a name. Fields with the same names along their selected paths, apart from
repetitions, give the same text. -/
theorem exists_isTreeOf_build (fields : List FieldChoice) :
    ∃ (selections : List Selection) (block : List Char),
      IsTreeOf (shownPaths fields) selections ∧
      GraphQL.Grammar.selectionSetOf? (String.ofList block) = some (trees selections) ∧
      (∀ table constraints, ∃ head, (build table fields constraints).text = String.ofList
        ("query \x7b\n  ".toList ++ head ++ block ++ "\n\x7d".toList)) ∧
      (∀ table constraints, isName table = true → ∃ arguments,
        GraphQL.Grammar.definitionsOf? (build table fields constraints).text =
          some [.operation .query none [] []
            [.field none table arguments [] (trees selections)]]) ∧
      ∀ others, (namePaths others).eraseDups = (namePaths fields).eraseDups →
        ∀ table constraints,
          (build table others constraints).text = (build table fields constraints).text := by
  obtain ⟨paths, hpaths, hselection⟩ := PathTree.exists_selectionOf_eq fields
  have hne := selectionOf_ne_nil fields
  refine ⟨selectionOf fields, GraphQL.Query.block (selectionOf fields), ?_,
    GraphQL.Query.selectionSetOf?_block hne, ?_, ?_, ?_⟩
  · rw [← hpaths, hselection]
    exact PathTree.isTreeOf_ofPaths paths
  · exact fun table constraints ↦ (build table fields constraints).exists_text_eq
  · intro table constraints htable
    exact ⟨_, GraphQL.Query.definitionsOf?_text htable
      (fieldsWritable_build table fields constraints) hne⟩
  · intro others hothers table constraints
    rw [build, PathTree.selectionOf_congr hothers, build]

/-- The city is selected as a whole and by its name, so that its name is what is fetched, and the
index and the repetition of a path are of no account. -/
theorem exists_isTreeOf_build_stations :
    isName "stations" = true ∧ ∃ (selections : List Selection) (block : List Char),
      IsTreeOf [["city", "name"], ["id"], ["city"]] selections ∧
      GraphQL.Grammar.selectionSetOf? (String.ofList block) = some (trees selections) ∧
      (∃ arguments, GraphQL.Grammar.definitionsOf? (build "stations"
        [⟨"city[1].name", true, none⟩, ⟨" id ", true, none⟩, ⟨"city", true, none⟩,
          ⟨"1st", true, none⟩, ⟨"name", false, none⟩] none).text =
        some [.operation .query none [] []
          [.field none "stations" arguments [] (trees selections)]]) ∧
      (build "stations" [⟨"city[2].name", true, none⟩, ⟨"id", true, none⟩,
          ⟨"city.name", true, none⟩, ⟨"city", true, none⟩] none).text =
        (build "stations" [⟨"city[1].name", true, none⟩, ⟨" id ", true, none⟩,
          ⟨"city", true, none⟩, ⟨"1st", true, none⟩, ⟨"name", false, none⟩] none).text := by
  have htable : isName "stations" = true := by decide
  have hfields : namePaths [⟨"city[1].name", true, none⟩, ⟨" id ", true, none⟩,
      ⟨"city", true, none⟩, ⟨"1st", true, none⟩, ⟨"name", false, none⟩] =
      [["city", "name"], ["id"], ["city"]] := by rfl
  have hothers : (namePaths [⟨"city[2].name", true, none⟩, ⟨"id", true, none⟩,
      ⟨"city.name", true, none⟩, ⟨"city", true, none⟩]).eraseDups =
      (namePaths [⟨"city[1].name", true, none⟩, ⟨" id ", true, none⟩, ⟨"city", true, none⟩,
        ⟨"1st", true, none⟩, ⟨"name", false, none⟩]).eraseDups := by
    rw [hfields]
    rfl
  obtain ⟨selections, block, htree, hblock, -, hreads, hsame⟩ := exists_isTreeOf_build
    [⟨"city[1].name", true, none⟩, ⟨" id ", true, none⟩, ⟨"city", true, none⟩,
      ⟨"1st", true, none⟩, ⟨"name", false, none⟩]
  rw [shownPaths, hfields, if_neg (List.cons_ne_nil _ _)] at htree
  exact ⟨htable, selections, block, htree, hblock, hreads "stations" none htable,
    hsame _ hothers "stations" none⟩

end Query

end AirInquiry
