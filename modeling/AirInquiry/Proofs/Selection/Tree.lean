import AirInquiry.Proofs.GraphQL.RoundTrip
import AirInquiry.Query.Build

/-!
# The routes of a tree of fields

A tree of fields holds a route if one can go along it from the root (`PathTree.Holds`). Adding a
path adds exactly the routes along it (`PathTree.holds_insert`), so a tree of selected paths holds
exactly the routes along these paths (`PathTree.holds_ofSelection`).

The selection of a tree has no labels, arguments and directives, and goes only along routes that the
tree holds (`PathTree.arePlain_trees_selection`).
-/

set_option autoImplicit false
set_option relaxedAutoImplicit false

namespace AirInquiry

open GraphQL (Name)

namespace PathTree

/-- Whether a tree has fields along a route. -/
def Holds : List Name → PathTree → Prop
  | [], _ => True
  | name :: rest, tree => ∃ child, (name, child) ∈ tree.children ∧ Holds rest child

theorem holds_nil (tree : PathTree) : Holds [] tree := trivial

theorem not_holds_empty {name : Name} {rest : List Name} : ¬ Holds (name :: rest) empty := by
  rintro ⟨child, hchild, -⟩
  cases hchild

/-! ### Adding paths -/

/-- Assumes that the change adds an alternative to a property, and that the tree without fields has
the property only by this alternative. -/
theorem exists_mem_alterChild {name other : Name} {change : PathTree → PathTree}
    {property : PathTree → Prop} {extra : Prop}
    (hchange : ∀ tree, property (change tree) ↔ property tree ∨ extra)
    (hempty : property empty → extra) (children : List (Name × PathTree)) :
    (∃ child, (other, child) ∈ alterChild name change children ∧ property child) ↔
      (∃ child, (other, child) ∈ children ∧ property child) ∨ other = name ∧ extra := by
  induction children with
  | nil =>
    have hnew : property (change empty) ↔ extra := by
      rw [hchange]
      exact ⟨fun h ↦ h.elim hempty id, .inr⟩
    simp only [alterChild, List.mem_singleton, Prod.mk.injEq, List.not_mem_nil, false_and,
      exists_false, false_or]
    constructor
    · rintro ⟨child, ⟨rfl, rfl⟩, h⟩
      exact ⟨rfl, hnew.1 h⟩
    · rintro ⟨rfl, h⟩
      exact ⟨change empty, ⟨rfl, rfl⟩, hnew.2 h⟩
  | cons entry rest ih =>
    obtain ⟨first, child⟩ := entry
    by_cases hfirst : first = name
    · simp only [alterChild, if_pos hfirst, List.mem_cons, Prod.mk.injEq]
      constructor
      · rintro ⟨found, ⟨rfl, rfl⟩ | hfound, h⟩
        · exact ((hchange child).1 h).imp (fun h ↦ ⟨child, .inl ⟨rfl, rfl⟩, h⟩) fun h ↦ ⟨hfirst, h⟩
        · exact .inl ⟨found, .inr hfound, h⟩
      · rintro (⟨found, ⟨rfl, rfl⟩ | hfound, h⟩ | ⟨rfl, h⟩)
        · exact ⟨change found, .inl ⟨rfl, rfl⟩, (hchange found).2 (.inl h)⟩
        · exact ⟨found, .inr hfound, h⟩
        · exact ⟨change child, .inl ⟨hfirst.symm, rfl⟩, (hchange child).2 (.inr h)⟩
    · simp only [alterChild, if_neg hfirst, List.mem_cons, or_and_right, exists_or, ih, or_assoc]

/-- Adding a path adds exactly the routes along it. -/
theorem holds_insert (route path : List Name) (tree : PathTree) :
    Holds route (insert path tree) ↔ Holds route tree ∨ route <+: path := by
  induction path generalizing route tree with
  | nil =>
    cases route with
    | nil => simp [Holds]
    | cons name rest => simp [insert]
  | cons name path ih =>
    cases route with
    | nil => simp [Holds]
    | cons other rest =>
      obtain ⟨children⟩ := tree
      have hempty : Holds rest empty → rest <+: path := by
        intro h
        cases rest with
        | nil => exact List.nil_prefix
        | cons first others => exact absurd h not_holds_empty
      simp only [insert, Holds, PathTree.children, List.cons_prefix_cons]
      exact exists_mem_alterChild (fun tree ↦ ih rest tree) hempty children

theorem holds_foldl_insert (route : List Name) (paths : List (List Name)) (tree : PathTree) :
    Holds route (paths.foldl (fun tree path ↦ insert path tree) tree) ↔
      Holds route tree ∨ ∃ path ∈ paths, route <+: path := by
  induction paths generalizing tree with
  | nil => simp
  | cons path paths ih => simp [ih, holds_insert, or_assoc]

/-- The tree of selected paths holds exactly the routes along them. -/
theorem holds_ofSelection {name : Name} {rest : List Name} (fields : List FieldChoice) :
    Holds (name :: rest) (ofSelection fields) ↔
      ∃ field ∈ fields, field.selected = true ∧
        ∃ path, namesOf field.path = some path ∧ name :: rest <+: path := by
  simp only [ofSelection, holds_foldl_insert, not_holds_empty, false_or, List.mem_filterMap,
    List.mem_filter]
  constructor
  · rintro ⟨path, ⟨field, ⟨hfield, hselected⟩, hpath⟩, hroute⟩
    exact ⟨field, hfield, hselected, path, hpath, hroute⟩
  · rintro ⟨field, hfield, hselected, path, hpath, hroute⟩
    exact ⟨path, ⟨field, ⟨hfield, hselected⟩, hpath⟩, hroute⟩

end PathTree

/-! ### Plain selections -/

namespace GraphQL.Grammar

mutual

/-- A field without label, arguments and directives, as are the fields inside it, at an allowed
route. -/
def Selection.IsPlain (allowed : List String → Prop) (above : List String) : Selection → Prop
  | .field label name arguments directives inner =>
    label = none ∧ arguments = [] ∧ directives = [] ∧ allowed (above ++ [name]) ∧
      ArePlain allowed (above ++ [name]) inner
  | _ => False
termination_by structural selection => selection

/-- `Selection.IsPlain` for every selection of a list. -/
def ArePlain (allowed : List String → Prop) (above : List String) : List Selection → Prop
  | [] => True
  | first :: rest => first.IsPlain allowed above ∧ ArePlain allowed above rest
termination_by structural selections => selections

end

theorem arePlain_append {allowed : List String → Prop} {above : List String}
    {first second : List Selection} (hfirst : ArePlain allowed above first)
    (hsecond : ArePlain allowed above second) : ArePlain allowed above (first ++ second) := by
  induction first with
  | nil => exact hsecond
  | cons selection rest ih => exact ⟨hfirst.1, ih hfirst.2⟩

end GraphQL.Grammar

open GraphQL.Grammar (ArePlain arePlain_append)

namespace GraphQL.Selection

theorem trees_append (first second : List GraphQL.Selection) :
    trees (first ++ second) = trees first ++ trees second := by
  induction first with
  | nil => rfl
  | cons selection rest ih => simp [trees, ih]

end GraphQL.Selection

namespace PathTree

open GraphQL.Selection (trees trees_append)

variable {allowed : List String → Prop}

theorem arePlain_leaves {above : List String} {children : List (Name × PathTree)}
    (h : ∀ child ∈ children, allowed (above ++ [child.1.text])) :
    ArePlain allowed above (trees (leaves children)) := by
  induction children with
  | nil => trivial
  | cons child rest ih =>
    have hrest := ih fun other hother ↦ h other (List.mem_cons_of_mem child hother)
    unfold leaves at hrest ⊢
    rw [List.filter_cons]
    split
    · exact ⟨⟨rfl, rfl, rfl, h child (by simp), trivial⟩, hrest⟩
    · exact hrest

mutual

/-- Assumes that every route of the tree is allowed below the fields above it. -/
theorem arePlain_trees_selection : ∀ (tree : PathTree) {above : List String},
    (∀ name rest, Holds (name :: rest) tree →
      allowed (above ++ (name :: rest).map Name.text)) →
    ArePlain allowed above (trees tree.selection)
  | .node children, above, h => by
    have hchild : ∀ child ∈ children, ∀ rest, Holds rest child.2 →
        allowed (above ++ (child.1 :: rest).map Name.text) :=
      fun child hchild rest hrest ↦ h child.1 rest ⟨child.2, hchild, hrest⟩
    rw [selection, trees_append]
    refine arePlain_append (arePlain_leaves fun child hmem ↦ ?_)
      (arePlain_trees_inner children hchild)
    exact hchild child hmem [] (holds_nil _)

theorem arePlain_trees_inner : ∀ (children : List (Name × PathTree)) {above : List String},
    (∀ child ∈ children, ∀ rest, Holds rest child.2 →
      allowed (above ++ (child.1 :: rest).map Name.text)) →
    ArePlain allowed above (trees (inner children))
  | [], _, _ => trivial
  | (name, tree) :: rest, above, h => by
    have hrest := arePlain_trees_inner rest fun child hchild ↦ h child (by simp [hchild])
    have hfirst := h (name, tree) (by simp)
    rw [inner]
    split
    · exact hrest
    · refine ⟨⟨rfl, rfl, rfl, hfirst [] (holds_nil _), ?_⟩, hrest⟩
      refine arePlain_trees_selection tree fun next others hholds ↦ ?_
      simpa using hfirst (next :: others) hholds

end

end PathTree

end AirInquiry
