import AirInquiry.Proofs.Selection.Tree
import Mathlib.Data.List.Nodup
import Mathlib.Data.List.Perm.Basic

/-!
# Where a tree of fields ends

The selection of a tree is its children in another order, each with its own selection inside
(`PathTree.selection_perm`). So the routes on which a selection ends are those on which its tree
ends (`PathTree.mem_allRoutes_selection`).

Adding paths to a tree never puts two fields of one name at the same place
(`PathTree.isDistinct_ofSelection`). A tree of this kind ends exactly where it holds a route and
nothing further along it (`PathTree.ends_iff`), and its selection names no field twice at any place
(`PathTree.isUnrepeated_selection`).
-/

set_option autoImplicit false
set_option relaxedAutoImplicit false

namespace AirInquiry

open GraphQL (Name Selection)

/-! ### Routes of a selection -/

namespace GraphQL.Selection

/-- The name of a selected field. -/
def name : Selection → Name
  | .field name _ => name

/-- The fields selected inside a selected field. -/
def inner : Selection → List Selection
  | .field _ inner => inner

mutual

/-- The routes that lead from a selected field to the fields without inner fields. -/
def routes : Selection → List (List String)
  | .field name inner =>
    match inner with
    | [] => [[name.text]]
    | first :: rest => (routes first ++ allRoutes rest).map fun route ↦ name.text :: route
termination_by structural selection => selection

/-- The routes of all selected fields of a list. -/
def allRoutes : List Selection → List (List String)
  | [] => []
  | first :: rest => routes first ++ allRoutes rest
termination_by structural selections => selections

end

theorem mem_allRoutes {selections : List Selection} {route : List String} :
    route ∈ allRoutes selections ↔ ∃ selection ∈ selections, route ∈ selection.routes := by
  induction selections with
  | nil => simp [allRoutes]
  | cons first rest ih => simp [allRoutes, ih]

theorem routes_field_nil (name : Name) : (Selection.field name []).routes = [[name.text]] := rfl

theorem routes_field {name : Name} {inner : List Selection} (h : inner ≠ []) :
    (Selection.field name inner).routes =
      (allRoutes inner).map fun route ↦ name.text :: route := by
  cases inner with
  | nil => exact absurd rfl h
  | cons first rest => rfl

/-- No field is selected twice at the same place, at any depth. -/
inductive IsUnrepeated : List Selection → Prop where
  | intro {selections : List Selection} (hnames : (selections.map name).Nodup)
      (hinner : ∀ selection ∈ selections, IsUnrepeated selection.inner) : IsUnrepeated selections

end GraphQL.Selection

namespace PathTree

mutual

/-- What follows for a tree as soon as it holds of its children holds of every tree. -/
@[elab_as_elim]
theorem induct {motive : PathTree → Prop}
    (node : ∀ children, (∀ child ∈ children, motive child.2) → motive (.node children)) :
    ∀ tree, motive tree
  | .node children => node children (forall_mem_children node children)

theorem forall_mem_children {motive : PathTree → Prop}
    (node : ∀ children, (∀ child ∈ children, motive child.2) → motive (.node children)) :
    ∀ children : List (Name × PathTree), ∀ child ∈ children, motive child.2
  | [] => List.forall_mem_nil _
  | (_, tree) :: rest =>
    List.forall_mem_cons.2 ⟨induct node tree, forall_mem_children node rest⟩

end

/-! ### The selection of a tree -/

theorem inner_eq_map (children : List (Name × PathTree)) :
    inner children = (children.filter fun child ↦ !child.2.isEmpty).map fun child ↦
      .field child.1 child.2.selection := by
  induction children with
  | nil => rfl
  | cons child rest ih =>
    obtain ⟨name, tree⟩ := child
    by_cases hempty : tree.isEmpty
    · simp [inner, hempty, ih]
    · simp [inner, hempty, ih]

theorem selection_of_isEmpty {tree : PathTree} (h : tree.isEmpty = true) : tree.selection = [] := by
  obtain ⟨children⟩ := tree
  have hchildren : children = [] := List.isEmpty_iff.1 h
  rw [hchildren]
  rfl

/-- The selection of a tree is its children in another order. -/
theorem selection_perm (tree : PathTree) :
    tree.selection.Perm (tree.children.map fun child ↦ .field child.1 child.2.selection) := by
  obtain ⟨children⟩ := tree
  have hleaves : leaves children = (children.filter fun child ↦ child.2.isEmpty).map fun child ↦
      .field child.1 child.2.selection := by
    refine List.map_congr_left fun child hchild ↦ ?_
    rw [selection_of_isEmpty (List.mem_filter.1 hchild).2]
  rw [selection, hleaves, inner_eq_map, ← List.map_append]
  exact (List.filter_append_perm _ children).map _

theorem selection_eq_nil_iff {tree : PathTree} : tree.selection = [] ↔ tree.isEmpty = true := by
  refine ⟨fun h ↦ ?_, selection_of_isEmpty⟩
  have hperm := tree.selection_perm
  rw [h, List.nil_perm, List.map_eq_nil_iff] at hperm
  obtain ⟨children⟩ := tree
  exact List.isEmpty_iff.2 hperm

theorem mem_selection {tree : PathTree} {selected : Selection} :
    selected ∈ tree.selection ↔
      ∃ child ∈ tree.children, .field child.1 child.2.selection = selected := by
  rw [tree.selection_perm.mem_iff, List.mem_map]

/-! ### Ends of a tree -/

/-- A route leads from the root to a place without fields. -/
def Ends : List Name → PathTree → Prop
  | [], tree => tree.isEmpty = true
  | name :: rest, tree => ∃ child, (name, child) ∈ tree.children ∧ Ends rest child

theorem exists_ends (tree : PathTree) : ∃ path, Ends path tree := by
  induction tree using induct with
  | node children ih =>
    cases children with
    | nil => exact ⟨[], rfl⟩
    | cons child rest =>
      obtain ⟨path, hpath⟩ := ih child (.head _)
      exact ⟨child.1 :: path, child.2, .head _, hpath⟩

theorem ends_of_isEmpty {tree : PathTree} (hempty : tree.isEmpty = true) {path : List Name} :
    Ends path tree ↔ path = [] := by
  cases path with
  | nil => exact ⟨fun _ ↦ rfl, fun _ ↦ hempty⟩
  | cons name rest =>
    obtain ⟨children⟩ := tree
    have hchildren : children = [] := List.isEmpty_iff.1 hempty
    simp [Ends, PathTree.children, hchildren]

theorem ne_nil_of_ends {tree : PathTree} (hempty : tree.isEmpty = false) {path : List Name}
    (h : Ends path tree) : path ≠ [] := by
  rintro rfl
  rw [Ends, hempty] at h
  cases h

/-- The routes of a selection are those on which its tree ends. By induction on the tree. -/
theorem mem_allRoutes_selection (tree : PathTree) {route : List String} :
    route ∈ Selection.allRoutes tree.selection ↔
      ∃ path, path ≠ [] ∧ Ends path tree ∧ path.map Name.text = route := by
  induction tree using induct generalizing route with
  | node children ih =>
    -- A child without fields is a route of its own, and the others go on inside.
    have hchild : ∀ child ∈ children, ∀ route,
        route ∈ (Selection.field child.1 child.2.selection).routes ↔
          ∃ path, Ends path child.2 ∧ (child.1 :: path).map Name.text = route := by
      intro child hmem route
      by_cases hempty : child.2.isEmpty
      · rw [selection_of_isEmpty hempty, Selection.routes_field_nil, List.mem_singleton]
        simp only [ends_of_isEmpty hempty, exists_eq_left, List.map_cons, List.map_nil]
        exact eq_comm
      · have hne : child.2.selection ≠ [] := fun h ↦ hempty (selection_eq_nil_iff.1 h)
        rw [Selection.routes_field hne, List.mem_map]
        constructor
        · rintro ⟨rest, hrest, rfl⟩
          obtain ⟨path, -, hends, rfl⟩ := (ih child hmem).1 hrest
          exact ⟨path, hends, rfl⟩
        · rintro ⟨path, hends, rfl⟩
          have hpath := ne_nil_of_ends (Bool.eq_false_iff.2 hempty) hends
          exact ⟨path.map Name.text, (ih child hmem).2 ⟨path, hpath, hends, rfl⟩, rfl⟩
    rw [Selection.mem_allRoutes]
    constructor
    · rintro ⟨selected, hselected, hroute⟩
      obtain ⟨child, hmem, rfl⟩ := mem_selection.1 hselected
      obtain ⟨path, hends, rfl⟩ := (hchild child hmem route).1 hroute
      exact ⟨child.1 :: path, List.cons_ne_nil _ _, ⟨child.2, hmem, hends⟩, rfl⟩
    · rintro ⟨path, hne, hends, rfl⟩
      cases path with
      | nil => exact absurd rfl hne
      | cons name rest =>
        obtain ⟨child, hmem, hrest⟩ := hends
        exact ⟨_, mem_selection.2 ⟨(name, child), hmem, rfl⟩,
          (hchild (name, child) hmem _).2 ⟨rest, hrest, rfl⟩⟩

/-! ### Trees without repeated names -/

/-- No two fields at the same place have the same name. -/
inductive IsDistinct : PathTree → Prop where
  | node {children : List (Name × PathTree)} (hnames : (children.map Prod.fst).Nodup)
      (hchildren : ∀ child ∈ children, child.2.IsDistinct) : IsDistinct (.node children)

theorem map_fst_alterChild (name : Name) (change : PathTree → PathTree)
    (children : List (Name × PathTree)) :
    (alterChild name change children).map Prod.fst =
      if name ∈ children.map Prod.fst then children.map Prod.fst
      else children.map Prod.fst ++ [name] := by
  induction children with
  | nil => rfl
  | cons child rest ih =>
    obtain ⟨other, tree⟩ := child
    by_cases hother : other = name
    · simp [alterChild, hother]
    · have hne : ¬ name = other := fun h ↦ hother h.symm
      rw [alterChild, if_neg hother, List.map_cons, ih]
      simp only [List.map_cons, List.mem_cons, hne, false_or]
      split <;> rfl

/-- Assumes that the change keeps the property, and that the tree without fields has it. -/
theorem forall_mem_alterChild {name : Name} {change : PathTree → PathTree}
    {property : PathTree → Prop} (hempty : property empty)
    (hchange : ∀ tree, property tree → property (change tree))
    {children : List (Name × PathTree)} (h : ∀ child ∈ children, property child.2) :
    ∀ child ∈ alterChild name change children, property child.2 := by
  induction children with
  | nil =>
    intro child hchild
    cases List.mem_singleton.1 hchild
    exact hchange empty hempty
  | cons child rest ih =>
    obtain ⟨hchild, hrest⟩ := List.forall_mem_cons.1 h
    rw [alterChild]
    split
    · exact List.forall_mem_cons.2 ⟨hchange _ hchild, hrest⟩
    · exact List.forall_mem_cons.2 ⟨hchild, ih hrest⟩

theorem isDistinct_empty : empty.IsDistinct := .node List.nodup_nil (List.forall_mem_nil _)

theorem isDistinct_insert (path : List Name) {tree : PathTree} (h : tree.IsDistinct) :
    (insert path tree).IsDistinct := by
  induction path generalizing tree with
  | nil =>
    rw [insert]
    exact h
  | cons name rest ih =>
    cases h with
    | node hnames hchildren =>
      rw [insert]
      refine .node ?_ (forall_mem_alterChild isDistinct_empty (fun _ ↦ ih) hchildren)
      rw [map_fst_alterChild]
      split
      · exact hnames
      · next hnew => exact List.nodup_append.2 ⟨hnames, List.nodup_singleton name, by
          rintro other hother _ hname rfl
          exact hnew (List.mem_singleton.1 hname ▸ hother)⟩

theorem isDistinct_ofSelection (fields : List FieldChoice) : (ofSelection fields).IsDistinct :=
  List.foldlRecOn _ _ isDistinct_empty fun _ h path _ ↦ isDistinct_insert path h

theorem IsDistinct.eq_of_mem {tree first second : PathTree} {name : Name} (h : tree.IsDistinct)
    (hfirst : (name, first) ∈ tree.children) (hsecond : (name, second) ∈ tree.children) :
    first = second := by
  cases h with
  | node hnames hchildren =>
    exact congrArg Prod.snd (List.inj_on_of_nodup_map hnames hfirst hsecond rfl)

/-- A tree without repeated names ends where it holds a route and nothing further along it. -/
theorem ends_iff {tree : PathTree} (h : tree.IsDistinct) {path : List Name} :
    Ends path tree ↔ Holds path tree ∧ ∀ name, ¬ Holds (path ++ [name]) tree := by
  induction path generalizing tree with
  | nil =>
    obtain ⟨children⟩ := tree
    cases children with
    | nil => simp [Ends, Holds, isEmpty, PathTree.children]
    | cons child rest =>
      have hfirst : Holds [child.1] (.node (child :: rest)) := ⟨child.2, .head _, trivial⟩
      simp only [Ends, isEmpty, List.isEmpty_cons, Bool.false_eq_true, List.nil_append, false_iff]
      exact fun h ↦ h.2 child.1 hfirst
  | cons name rest ih =>
    have hdistinct : ∀ child ∈ tree.children, child.2.IsDistinct := by
      cases h with
      | node _ hchildren => exact hchildren
    constructor
    · rintro ⟨child, hchild, hends⟩
      obtain ⟨hholds, hnothing⟩ := (ih (hdistinct _ hchild)).1 hends
      refine ⟨⟨child, hchild, hholds⟩, fun next ↦ ?_⟩
      rintro ⟨other, hother, hfurther⟩
      rw [h.eq_of_mem hother hchild] at hfurther
      exact hnothing next hfurther
    · rintro ⟨⟨child, hchild, hholds⟩, hnothing⟩
      exact ⟨child, hchild, (ih (hdistinct _ hchild)).2
        ⟨hholds, fun next hfurther ↦ hnothing next ⟨child, hchild, hfurther⟩⟩⟩

/-- Assumes that no selected path goes on along another one. -/
theorem ends_ofSelection {fields : List FieldChoice}
    (hfree : ∀ first ∈ fields, first.selected = true → ∀ second ∈ fields, second.selected = true →
      ∀ short long, namesOf first.path = some short → namesOf second.path = some long →
        short <+: long → short = long) {name : Name} {rest : List Name} :
    Ends (name :: rest) (ofSelection fields) ↔
      ∃ field ∈ fields, field.selected = true ∧ namesOf field.path = some (name :: rest) := by
  rw [ends_iff (isDistinct_ofSelection fields), holds_ofSelection]
  constructor
  · rintro ⟨⟨field, hfield, hselected, path, hpath, behind, rfl⟩, hnothing⟩
    cases behind with
    | nil => exact ⟨field, hfield, hselected, by rwa [List.append_nil] at hpath⟩
    | cons next others =>
      refine absurd ((holds_ofSelection fields).2 ?_) (hnothing next)
      exact ⟨field, hfield, hselected, _, hpath, others, by simp⟩
  · rintro ⟨field, hfield, hselected, hpath⟩
    refine ⟨⟨field, hfield, hselected, _, hpath, List.prefix_rfl⟩, fun next hfurther ↦ ?_⟩
    obtain ⟨other, hother, hmarked, path, hlong, hmore⟩ := (holds_ofSelection fields).1 hfurther
    have hlonger : name :: rest <+: path := (List.prefix_append (name :: rest) [next]).trans hmore
    have heq := hfree field hfield hselected other hother hmarked _ _ hpath hlong hlonger
    have hlength : (name :: rest ++ [next]).length ≤ path.length := hmore.length_le
    rw [← heq, List.length_append, List.length_singleton] at hlength
    omega

theorem isUnrepeated_selection {tree : PathTree} (h : tree.IsDistinct) :
    Selection.IsUnrepeated tree.selection := by
  induction h with
  | @node children hnames hchildren ih =>
    have hnames' : ((PathTree.node children).selection.map Selection.name).Nodup := by
      refine ((selection_perm _).map Selection.name).nodup_iff.2 ?_
      rw [List.map_map]
      exact hnames
    refine .intro hnames' fun selected hselected ↦ ?_
    obtain ⟨child, hmem, rfl⟩ := mem_selection.1 hselected
    exact ih child hmem

end PathTree

end AirInquiry
