import AirInquiry.Proofs.Lists
import AirInquiry.Proofs.Selection.Leaves
import Mathlib.Data.List.Induction

/-!
# Trees of paths, grouped by their first names

A tree is put together path by path, but what comes out has a form of its own. Its fields are the
first names of the paths, in the order of their first uses, and inside each of them is the tree of
what is behind this name in the paths that start with it (`PathTree.ofPaths_eq`). So a path that is
there already changes nothing (`PathTree.ofPaths_eraseDups`), and at every place of the tree the
fields stand in the order in which the paths come to them first
(`PathTree.pairwise_firstNames_behind`).
-/

set_option autoImplicit false
set_option relaxedAutoImplicit false

namespace AirInquiry

open GraphQL (Name Selection)

namespace PathTree

/-- The tree of a list of paths. -/
def ofPaths (paths : List (List Name)) : PathTree :=
  paths.foldl (fun tree path ↦ insert path tree) empty

/-- What is behind a route in the paths that start with it. -/
def behind (route : List Name) (paths : List (List Name)) : List (List Name) :=
  paths.filterMap (·.dropPrefix? route)

/-- The names that paths start with, each of them once, in the order of their first uses. -/
def firstNames (paths : List (List Name)) : List Name := (paths.filterMap List.head?).eraseDups

section Paths

variable {paths : List (List Name)} {route path : List Name} {name : Name}

theorem mem_behind {rest : List Name} : rest ∈ behind route paths ↔ route ++ rest ∈ paths := by
  simp [behind, List.dropPrefix?_eq_some_iff]

theorem behind_nil (paths : List (List Name)) : behind [] paths = paths := by
  simp [behind]

theorem behind_cons (name : Name) (route : List Name) (paths : List (List Name)) :
    behind (name :: route) paths = behind route (behind [name] paths) := by
  rw [behind, behind, behind, List.filterMap_filterMap]
  refine List.filterMap_congr fun path _ ↦ ?_
  cases path with
  | nil => rfl
  | cons first rest => by_cases hfirst : first = name <;> simp [List.dropPrefix?, hfirst]

theorem behind_concat (route : List Name) (paths : List (List Name)) (path : List Name) :
    behind route (paths ++ [path]) = behind route paths ++ (path.dropPrefix? route).toList := by
  rw [behind, List.filterMap_append, behind]
  cases hdrop : path.dropPrefix? route <;> simp [hdrop]

theorem mem_firstNames : name ∈ firstNames paths ↔ ∃ rest, name :: rest ∈ paths := by
  rw [firstNames, List.mem_eraseDups, List.mem_filterMap]
  constructor
  · rintro ⟨path, hpath, hhead⟩
    obtain ⟨rest, rfl⟩ := List.head?_eq_some_iff.1 hhead
    exact ⟨rest, hpath⟩
  · rintro ⟨rest, hpath⟩
    exact ⟨_, hpath, rfl⟩

theorem mem_firstNames_behind :
    name ∈ firstNames (behind route paths) ↔ ∃ path ∈ paths, route ++ [name] <+: path := by
  rw [mem_firstNames]
  constructor
  · rintro ⟨rest, hrest⟩
    exact ⟨_, mem_behind.1 hrest, rest, by simp⟩
  · rintro ⟨path, hpath, rest, rfl⟩
    exact ⟨rest, mem_behind.2 (by simpa using hpath)⟩

theorem nodup_firstNames (paths : List (List Name)) : (firstNames paths).Nodup :=
  nodup_eraseDups _

theorem firstNames_concat_nil (paths : List (List Name)) :
    firstNames (paths ++ [[]]) = firstNames paths := by
  rw [firstNames, List.filterMap_append]
  exact congrArg List.eraseDups (List.append_nil _)

theorem firstNames_concat_cons (paths : List (List Name)) (name : Name) (rest : List Name) :
    firstNames (paths ++ [name :: rest]) =
      if name ∈ firstNames paths then firstNames paths else firstNames paths ++ [name] := by
  have hmem : name ∈ firstNames paths ↔ name ∈ paths.filterMap List.head? := List.mem_eraseDups
  rw [if_congr hmem rfl rfl, firstNames, List.filterMap_append]
  exact eraseDups_concat _ name

/-! ### The form of a tree -/

theorem ofPaths_concat (paths : List (List Name)) (path : List Name) :
    ofPaths (paths ++ [path]) = insert path (ofPaths paths) :=
  List.foldl_concat ..

/-- Changing the child of a name among children that are given by their names. Assumes that a new
child is the tree without fields before it is changed. -/
theorem alterChild_map {names : List Name} (hnames : names.Nodup) {inside : Name → PathTree}
    {change : PathTree → PathTree} (hnew : name ∉ names → inside name = empty) :
    alterChild name change (names.map fun other ↦ (other, inside other)) =
      (if name ∈ names then names else names ++ [name]).map fun other ↦
        (other, if other = name then change (inside other) else inside other) := by
  induction names with
  | nil => simp [alterChild, hnew List.not_mem_nil]
  | cons first rest ih =>
    obtain ⟨hfirst, hrest⟩ := List.nodup_cons.1 hnames
    by_cases heq : first = name
    · -- The names behind the changed one are others.
      have hothers : ∀ other ∈ rest, other ≠ name := by
        rintro other hother rfl
        exact hfirst (heq ▸ hother)
      have hmap : (rest.map fun other ↦ (other, inside other)) = rest.map fun other ↦
          (other, if other = name then change (inside other) else inside other) :=
        List.map_congr_left fun other hother ↦ by rw [if_neg (hothers other hother)]
      simp [alterChild, heq, hmap]
    · have hne : name ≠ first := fun h ↦ heq h.symm
      have hmem : name ∈ first :: rest ↔ name ∈ rest := by simp [hne]
      rw [List.map_cons, alterChild, if_neg heq, ih hrest fun h ↦ hnew (by rwa [hmem]),
        if_congr hmem rfl rfl]
      split <;> simp [heq]

theorem behind_of_notMem_firstNames (h : name ∉ firstNames paths) : behind [name] paths = [] := by
  rw [List.eq_nil_iff_forall_not_mem]
  exact fun rest hrest ↦ h (mem_firstNames.2 ⟨rest, mem_behind.1 hrest⟩)

theorem behind_singleton_concat_cons (paths : List (List Name)) (other name : Name)
    (rest : List Name) :
    behind [other] (paths ++ [name :: rest]) =
      behind [other] paths ++ if other = name then [rest] else [] := by
  rw [behind_concat]
  by_cases heq : name = other
  · simp [List.dropPrefix?, heq]
  · simp [List.dropPrefix?, heq, Ne.symm heq]

/-- The fields of a tree are the first names of its paths, and what is inside a field is the tree of
what is behind its name. By induction on the paths from their end. -/
theorem ofPaths_eq (paths : List (List Name)) :
    ofPaths paths = .node ((firstNames paths).map fun name ↦
      (name, ofPaths (behind [name] paths))) := by
  induction paths using List.reverseRecOn with
  | nil => rfl
  | append_singleton paths path ih =>
    rw [ofPaths_concat, ih]
    cases path with
    | nil =>
      rw [insert, firstNames_concat_nil]
      simp [behind_concat, List.dropPrefix?]
    | cons name rest =>
      have hnew : name ∉ firstNames paths → ofPaths (behind [name] paths) = empty := fun h ↦ by
        rw [behind_of_notMem_firstNames h]
        rfl
      rw [insert, alterChild_map (nodup_firstNames paths) hnew, firstNames_concat_cons]
      refine congrArg node (List.map_congr_left fun other _ ↦ ?_)
      rw [behind_singleton_concat_cons]
      split
      · rw [ofPaths_concat]
      · rw [List.append_nil]

theorem children_ofPaths (paths : List (List Name)) :
    (ofPaths paths).children = (firstNames paths).map fun name ↦
      (name, ofPaths (behind [name] paths)) := by
  rw [ofPaths_eq, children]

theorem map_fst_children_ofPaths (paths : List (List Name)) :
    (ofPaths paths).children.map Prod.fst = firstNames paths := by
  rw [children_ofPaths, List.map_map]
  exact List.map_id _

theorem isEmpty_ofPaths : (ofPaths paths).isEmpty = true ↔ ∀ path ∈ paths, path = [] := by
  rw [ofPaths_eq, isEmpty, List.isEmpty_iff, List.map_eq_nil_iff, List.eq_nil_iff_forall_not_mem]
  constructor
  · intro h path hpath
    cases path with
    | nil => rfl
    | cons name rest => exact absurd (mem_firstNames.2 ⟨rest, hpath⟩) (h name)
  · intro h name hname
    obtain ⟨rest, hrest⟩ := mem_firstNames.1 hname
    exact absurd (h _ hrest) (List.cons_ne_nil _ _)

/-! ### Repeated paths -/

/-- A path that is there already changes nothing. By induction on the path. -/
theorem ofPaths_concat_of_mem (h : path ∈ paths) : ofPaths (paths ++ [path]) = ofPaths paths := by
  induction path generalizing paths with
  | nil => rw [ofPaths_concat, insert]
  | cons name rest ih =>
    rw [ofPaths_eq, ofPaths_eq paths, firstNames_concat_cons, if_pos (mem_firstNames.2 ⟨rest, h⟩)]
    refine congrArg node (List.map_congr_left fun other _ ↦ ?_)
    rw [behind_singleton_concat_cons]
    split
    · next heq => rw [ih (mem_behind.2 (by rwa [heq]))]
    · rw [List.append_nil]

theorem ofPaths_eraseDups (paths : List (List Name)) : ofPaths paths.eraseDups = ofPaths paths := by
  induction paths using List.reverseRecOn with
  | nil => rfl
  | append_singleton paths path ih =>
    rw [eraseDups_concat]
    split
    · next h => rw [ih, ofPaths_concat_of_mem h]
    · rw [ofPaths_concat, ih, ofPaths_concat]

/-! ### The order of fields -/

/-- The place of the first path that goes along a route, or the number of paths if none does. -/
def firstUse {α : Type} [BEq α] (paths : List (List α)) (route : List α) : Nat :=
  paths.findIdx fun path ↦ route.isPrefixOf path

/-- Assumes that different items are written differently. -/
theorem map_prefix_map_iff {α β : Type} {write : α → β} (hwrite : Function.Injective write)
    {first second : List α} : first.map write <+: second.map write ↔ first <+: second := by
  rw [List.prefix_map_iff]
  constructor
  · rintro ⟨items, hitems, hfirst⟩
    rwa [List.map_injective_iff.2 hwrite hfirst]
  · exact fun h ↦ ⟨first, h, rfl⟩

/-- Assumes that different items are written differently. -/
theorem firstUse_map {α β : Type} [BEq α] [LawfulBEq α] [BEq β] [LawfulBEq β] {write : α → β}
    (hwrite : Function.Injective write) (paths : List (List α)) (route : List α) :
    firstUse (paths.map (List.map write)) (route.map write) = firstUse paths route := by
  have huses : ∀ path : List α,
      (route.map write).isPrefixOf (path.map write) = route.isPrefixOf path := by
    intro path
    rw [Bool.eq_iff_iff, List.isPrefixOf_iff_prefix, List.isPrefixOf_iff_prefix,
      map_prefix_map_iff hwrite]
  rw [firstUse, List.findIdx_map, firstUse]
  exact congrArg (paths.findIdx ·) (funext huses)

theorem firstUse_lt_length :
    firstUse paths route < paths.length ↔ ∃ path ∈ paths, route <+: path := by
  simp only [firstUse, List.findIdx_lt_length, List.isPrefixOf_iff_prefix]

theorem firstUse_concat (paths : List (List Name)) (path route : List Name) :
    firstUse (paths ++ [path]) route =
      if ∃ path ∈ paths, route <+: path then firstUse paths route
      else firstUse [path] route + paths.length := by
  rw [if_congr firstUse_lt_length.symm rfl rfl]
  exact List.findIdx_append

/-- The fields at a place stand in the order of their first uses. By induction on the paths from
their end: a new path leaves the first uses of the fields that are there as they are. -/
theorem pairwise_firstNames_behind (route : List Name) (paths : List (List Name)) :
    (firstNames (behind route paths)).Pairwise fun first second ↦
      firstUse paths (route ++ [first]) < firstUse paths (route ++ [second]) := by
  induction paths using List.reverseRecOn with
  | nil => exact .nil
  | append_singleton paths path ih =>
    have hkept : ∀ name ∈ firstNames (behind route paths),
        firstUse (paths ++ [path]) (route ++ [name]) = firstUse paths (route ++ [name]) :=
      fun name hname ↦ by rw [firstUse_concat, if_pos (mem_firstNames_behind.1 hname)]
    have hold : (firstNames (behind route paths)).Pairwise fun first second ↦
        firstUse (paths ++ [path]) (route ++ [first]) <
          firstUse (paths ++ [path]) (route ++ [second]) := by
      refine ih.imp_of_mem fun {first second} hfirst hsecond hless ↦ ?_
      rwa [hkept first hfirst, hkept second hsecond]
    rw [behind_concat]
    cases hdrop : path.dropPrefix? route with
    | none => simpa using hold
    | some rest =>
      cases rest with
      | nil =>
        rw [Option.toList_some, firstNames_concat_nil]
        exact hold
      | cons name rest =>
        rw [Option.toList_some, firstNames_concat_cons]
        split
        · exact hold
        · next hnew =>
          refine List.pairwise_append.2 ⟨hold, List.pairwise_singleton _ _, ?_⟩
          intro other hother last hlast
          obtain rfl := List.mem_singleton.1 hlast
          have hearlier := firstUse_lt_length.2 (mem_firstNames_behind.1 hother)
          rw [hkept other hother, firstUse_concat, if_neg fun h ↦ hnew (mem_firstNames_behind.2 h)]
          omega

/-- Leaves stand in front of the other fields, and each of the two groups keeps the order of the
children. -/
theorem pairwise_selection {tree : PathTree} {before : Name → Name → Prop}
    (h : (tree.children.map Prod.fst).Pairwise before) :
    tree.selection.Pairwise fun first second ↦
      first.inner = [] ∧ second.inner ≠ [] ∨
        (first.inner = [] ↔ second.inner = []) ∧ before first.name second.name := by
  obtain ⟨children⟩ := tree
  have hchildren := List.pairwise_map.1 h
  rw [selection, inner_eq_map]
  refine List.pairwise_append.2 ⟨?_, ?_, ?_⟩
  · refine List.pairwise_map.2 ((hchildren.filter _).imp fun {first second} hbefore ↦ ?_)
    exact .inr ⟨Iff.rfl, hbefore⟩
  · refine List.pairwise_map.2 ((hchildren.filter _).imp_of_mem ?_)
    intro first second hfirst hsecond hbefore
    refine .inr ⟨?_, hbefore⟩
    have hinner : ∀ child ∈ children.filter fun child ↦ !child.2.isEmpty,
        (Selection.field child.1 child.2.selection).inner ≠ [] := by
      intro child hchild hnil
      have hempty := selection_eq_nil_iff.1 hnil
      simp [hempty] at hchild
    exact iff_of_false (hinner first hfirst) (hinner second hsecond)
  · intro first hfirst second hsecond
    obtain ⟨leaf, -, rfl⟩ := List.mem_map.1 hfirst
    obtain ⟨child, hchild, rfl⟩ := List.mem_map.1 hsecond
    refine .inl ⟨rfl, fun hnil ↦ ?_⟩
    have hempty := selection_eq_nil_iff.1 hnil
    simp [hempty] at hchild

end Paths

end PathTree

end AirInquiry
