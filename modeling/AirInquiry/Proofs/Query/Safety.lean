import AirInquiry.Catalog.AirQuality
import AirInquiry.Proofs.Lookup.Posting
import AirInquiry.Proofs.Query.RoundTrip
import AirInquiry.Proofs.Selection.Registered
import AirInquiry.Proofs.Selection.Tree
import AirInquiry.Responder

/-!
# Only safe queries are posted

A query is safe for a table if its text is a document of one anonymous query for the table, with at
most the four known arguments, each at most once, and a selection of the identifier and of
registered routes (`IsSafeQuery`). So nothing that the language model or the data service says can
turn a query into another operation, reach another table, or select what the catalog does not
register.

Whatever the replies are, a lookup posts only safe queries for the table of its inquiry, and so does
the answer to a question for known tables (`posts_isSafeQuery`). The only assumption is that the
catalog uses names of the query language.
-/

set_option autoImplicit false
set_option relaxedAutoImplicit false

namespace AirInquiry

open FieldChoice (Leads parts)
open GraphQL (isName)
open GraphQL.Grammar (ArePlain definitionsOf?)

variable {catalog : Catalog} {table : String}

/-! ### Safe queries -/

/-- The routes that a query for a table may select. -/
def IsSelectable (catalog : Catalog) (table : String) (route : List String) : Prop :=
  route = [identifierName] ∨ catalog.Registers table route

/-- The arguments that a query may have. -/
def argumentNames : List String := ["where", "order_by", "limit", "offset"]

/-- The text is one anonymous query for a known table, without labels, directives and fragments. -/
def IsSafeQuery (catalog : Catalog) (table text : String) : Prop :=
  ∃ arguments selections,
    definitionsOf? text =
      some [.operation .query none [] [] [.field none table arguments [] selections]] ∧
    (catalog.get? table).isSome ∧
    (arguments.map Prod.fst).Sublist argumentNames ∧
    selections ≠ [] ∧ ArePlain (IsSelectable catalog table) [] selections

theorem IsSelectable.of_isPrefix {route longer : List String}
    (h : IsSelectable catalog table longer) (hroutes : route <+: longer) (hne : route ≠ []) :
    IsSelectable catalog table route := by
  rcases h with rfl | h
  · cases route with
    | nil => exact absurd rfl hne
    | cons first rest =>
      obtain ⟨rfl, hrest⟩ := List.cons_prefix_cons.1 hroutes
      rw [List.prefix_nil.1 hrest]
      exact .inl rfl
  · exact .inr (h.of_isPrefix hroutes hne)

/-- Every path of a selection leads along a route that may be selected. -/
def AreSelectable (catalog : Catalog) (table : String) (fields : List FieldChoice) : Prop :=
  ∀ field ∈ fields, ∃ route, IsSelectable catalog table route ∧ Leads (parts field.path) route

theorem areSelectable_of_ofObject (hnamed : catalog.IsNamed) {value : Json}
    {choices : List FieldChoice} (h : FieldChoice.ofObject catalog table value = some choices) :
    AreSelectable catalog table (FieldChoice.withIdentifier choices) := by
  intro field hfield
  rcases FieldChoice.path_of_mem_withIdentifier hfield with hpath | ⟨choice, hchoice, hpath⟩
  · exact ⟨_, .inl rfl, hpath ▸ FieldChoice.leads_identifier⟩
  · obtain ⟨route, hroute, hleads⟩ := FieldChoice.leads_of_ofObject hnamed h choice hchoice
    exact ⟨route, .inr hroute, hpath ▸ hleads⟩

theorem names_argumentTrees (constraints : Constraints) :
    (constraints.argumentTrees.map Prod.fst).Sublist argumentNames := by
  have hoption : ∀ {α : Type} (name : String) (toTree : α → GraphQL.Grammar.Value)
      (value : Option α),
      ((value.map fun value ↦ (name, toTree value)).toList.map Prod.fst).Sublist [name] := by
    intro α name toTree value
    cases value with
    | none => exact List.nil_sublist _
    | some value => exact List.Sublist.refl _
  have hsortKeys : ((if constraints.sortKeys = [] then []
      else [("order_by", GraphQL.Grammar.Value.list
        (constraints.sortKeys.map SortKey.tree))]).map Prod.fst).Sublist ["order_by"] := by
    split
    · exact List.nil_sublist _
    · exact List.Sublist.refl _
  rw [Constraints.argumentTrees, List.map_append, List.map_append, List.map_append]
  exact (((hoption "where" _ _).append hsortKeys).append (hoption "limit" _ _)).append
    (hoption "offset" _ _)

theorem arePlain_selectionOf {fields : List FieldChoice}
    (h : AreSelectable catalog table fields) :
    ArePlain (IsSelectable catalog table) []
      (GraphQL.Selection.trees (Query.selectionOf fields)) := by
  simp only [Query.selectionOf]
  split
  · exact ⟨⟨rfl, rfl, rfl, .inl rfl, trivial⟩, trivial⟩
  · refine PathTree.arePlain_trees_selection _ fun name rest hholds ↦ ?_
    obtain ⟨field, hfield, -, path, hpath, hroutes⟩ := (PathTree.holds_ofSelection fields).1 hholds
    obtain ⟨route, hroute, hleads⟩ := h field hfield
    have hnames : path.map GraphQL.Name.text = route := hleads path hpath
    exact hroute.of_isPrefix (hnames ▸ hroutes.map GraphQL.Name.text) (by simp)

theorem trees_ne_nil {selections : List GraphQL.Selection} (h : selections ≠ []) :
    GraphQL.Selection.trees selections ≠ [] := by
  cases selections with
  | nil => exact absurd rfl h
  | cons first rest => simp [GraphQL.Selection.trees]

/-- The query for a known table and selectable fields is safe under any constraints. -/
theorem isSafeQuery_build (hnamed : catalog.IsNamed) (htable : (catalog.get? table).isSome)
    {fields : List FieldChoice} (hfields : AreSelectable catalog table fields)
    (constraints : Option Constraints) :
    IsSafeQuery catalog table (Query.build table fields constraints).text := by
  obtain ⟨found, hfound⟩ := Option.isSome_iff_exists.1 htable
  have hname : isName table = true := by
    obtain ⟨hmem, rfl⟩ := Catalog.mem_of_get? hfound
    exact hnamed.tables found hmem
  have hselection := Query.selectionOf_ne_nil fields
  refine ⟨_, _, GraphQL.Query.definitionsOf?_text hname
    (Query.fieldsWritable_build table fields constraints) hselection, htable, ?_,
    trees_ne_nil hselection, arePlain_selectionOf hfields⟩
  rw [Query.fieldTrees_build]
  cases constraints with
  | none => exact List.nil_sublist _
  | some constraints => exact names_argumentTrees constraints

/-! ### Lookups -/

/-- A call that posts only what is safe for a table; asking for a completion is always allowed. -/
def PostsSafely (catalog : Catalog) (table : String) (call : Call) : Prop :=
  ∀ query, call = .post query → IsSafeQuery catalog table query

theorem postsSafely_complete (request : Completion.Request) :
    PostsSafely catalog table (.complete request) := by
  intro query h
  cases h

theorem PostsNothing.postsSafely {call : Call} (h : PostsNothing call) :
    PostsSafely catalog table call :=
  fun query hquery ↦ absurd hquery (h.ne_post query)

namespace Lookup

/-- Selecting fields posts nothing, and selects what may be selected from a known table. -/
theorem ensures_select (hnamed : catalog.IsNamed) (limit : Nat)
    (question description table : String) :
    (select catalog limit question description table).Ensures (PostsSafely catalog table)
      fun selection ↦ ∀ fields ∈ selection,
        (catalog.get? table).isSome ∧ AreSelectable catalog table fields := by
  unfold select
  split
  · refine .done fun fields hfields ↦ ?_
    cases hfields
  · next schema hschema =>
    have htable : (catalog.get? table).isSome := by
      simp only [Catalog.choiceSchema, Option.map_eq_some_iff] at hschema
      obtain ⟨found, hfound, -⟩ := hschema
      rw [hfound]
      rfl
    refine (Dialogue.Ensures.completion (postsSafely_complete _)).bind fun reply _ ↦
      .done fun fields hfields ↦ ⟨htable, ?_⟩
    unfold selectionOfReply at hfields
    cases reply with
    | error error => cases hfields
    | ok value =>
      obtain ⟨choices, hchoices, rfl⟩ := Option.map_eq_some_iff.1 hfields
      exact areSelectable_of_ofObject hnamed hchoices

theorem ensures_post {query : String} (h : IsSafeQuery catalog table query) :
    (post query).Ensures (PostsSafely catalog table) fun _ ↦ True := by
  have hcall : PostsSafely catalog table (.post query) := by
    intro posted hposted
    cases hposted
    exact h
  unfold post
  split
  · exact .done trivial
  · exact (Dialogue.Ensures.posting hcall).bind fun _ _ ↦ .done trivial

theorem ensures_lookUpFields {setting : Setting} (hnamed : setting.catalog.IsNamed)
    (prior : Json.Entries) {inquiry : Inquiry} {fields : List FieldChoice}
    (htable : (setting.catalog.get? inquiry.table).isSome)
    (hfields : AreSelectable setting.catalog inquiry.table fields) :
    (lookUpFields setting prior inquiry fields).Ensures
      (PostsSafely setting.catalog inquiry.table) fun _ ↦ True := by
  unfold lookUpFields
  have hfind : (setting.finder.find inquiry.question inquiry.description fields prior).Ensures
      (PostsSafely setting.catalog inquiry.table) fun _ ↦ True :=
    (find_postsNothing _ _ _ _ _).mono (fun _ hnothing ↦ hnothing.postsSafely) fun _ h ↦ h
  refine hfind.bind fun constraints _ ↦ ?_
  have hpost := ensures_post (isSafeQuery_build hnamed htable hfields constraints)
  exact hpost.bind fun findings _ ↦ .done trivial

theorem ensures_lookUp {setting : Setting} (hnamed : setting.catalog.IsNamed)
    (prior : Json.Entries) (inquiry : Inquiry) :
    (lookUp setting prior inquiry).Ensures (PostsSafely setting.catalog inquiry.table)
      fun _ ↦ True := by
  unfold lookUp
  refine (ensures_select hnamed _ _ _ _).bind fun selection hselection ↦ ?_
  cases selection with
  | none => exact .done trivial
  | some fields =>
    obtain ⟨htable, hfields⟩ := hselection fields rfl
    exact ensures_lookUpFields hnamed prior htable hfields

end Lookup

/-! ### Answers -/

/-- A call that posts only what is safe for some table. -/
def IsSafeCall (catalog : Catalog) (call : Call) : Prop :=
  ∀ query, call = .post query → ∃ table, IsSafeQuery catalog table query

theorem PostsNothing.isSafeCall {call : Call} (h : PostsNothing call) : IsSafeCall catalog call :=
  fun query hquery ↦ absurd hquery (h.ne_post query)

theorem Lookup.ensures_fill {setting : Setting} (hnamed : setting.catalog.IsNamed)
    (prior : Json.Entries) (inquiry : Inquiry) :
    (fill setting prior inquiry).Ensures (IsSafeCall setting.catalog) fun _ ↦ True := by
  refine ((ensures_lookUp hnamed prior inquiry).mono ?_ fun _ h ↦ h).bind fun _ _ ↦
    .done trivial
  intro call hcall query hquery
  exact ⟨inquiry.table, hcall query hquery⟩

theorem Plan.ensures_make (catalog : Catalog) (today question : String) :
    (Plan.make catalog today question).Ensures (IsSafeCall catalog) fun _ ↦ True :=
  (make_postsNothing catalog today question).mono (fun _ h ↦ h.isSafeCall) fun _ h ↦ h

theorem Answer.ensures_compose (limit : Nat) (question : String) (data : Json.Entries)
    (queries failures : List String) :
    (compose limit question data queries failures).Ensures (IsSafeCall catalog) fun _ ↦ True :=
  (compose_postsNothing limit question data queries failures).mono (fun _ h ↦ h.isSafeCall)
    fun _ h ↦ h

theorem Responder.onlyAdds_answer {σ : Type} (peers : Peers σ) (responder : Responder)
    (hnamed : responder.setting.catalog.IsNamed) (question : String) (session : Session σ) :
    Session.OnlyAdds (IsSafeCall responder.setting.catalog) session
      (responder.answer peers question session).2 := by
  have hplanned := ((Plan.ensures_make responder.setting.catalog responder.setting.finder.today
    question).run peers session).2
  unfold Responder.answer
  split
  next planned session' hmake =>
  rw [hmake] at hplanned
  split
  · exact hplanned
  · next plan =>
    have hcarried := Lookup.Progress.run_onlyAdds peers (some (responder.deadline session'.clock))
      (Lookup.ensures_fill hnamed) (Lookup.Progress.start plan) session'
    dsimp only
    split
    · next after hrun =>
      rw [Lookup.carryOutPlan] at hrun
      rw [hrun] at hcarried
      exact hplanned.trans hcarried
    · next progress after hrun =>
      rw [Lookup.carryOutPlan] at hrun
      rw [hrun] at hcarried
      exact (hplanned.trans hcarried).trans ((Answer.ensures_compose _ _ _ _ _).run peers after).2

/-- Whatever the peers do, lookups and answers post only safe queries. -/
theorem posts_isSafeQuery (setting : Lookup.Setting) (hnamed : setting.catalog.IsNamed) :
    (∀ prior inquiry, (Lookup.lookUp setting prior inquiry).Ensures
      (fun call ↦ ∀ query, call = .post query →
        IsSafeQuery setting.catalog inquiry.table query) fun _ ↦ True) ∧
    ∀ {σ : Type} (peers : Peers σ) (timeLimit : Nat) (question : String) (session : Session σ)
      (query : String),
      .post query ∈ ((Responder.mk setting timeLimit).answer peers question session).2.calls →
      .post query ∈ session.calls ∨ ∃ table, IsSafeQuery setting.catalog table query := by
  refine ⟨fun prior inquiry ↦ Lookup.ensures_lookUp hnamed prior inquiry, ?_⟩
  intro σ peers timeLimit question session query hquery
  have hadds := Responder.onlyAdds_answer peers ⟨setting, timeLimit⟩ hnamed question session
  exact (hadds.mem_or hquery).imp_right fun hsafe ↦ hsafe query rfl

theorem isNamed_airQuality : Catalog.airQuality.IsNamed where
  tables := by decide +kernel
  fields := by decide +kernel

/-- A model that answers everything with a mutation, asked about the provinces. -/
theorem posts_isSafeQuery_airQuality :
    Catalog.airQuality.IsNamed ∧
    (Lookup.lookUp ⟨Catalog.airQuality, .model, ⟨[]⟩, 4096, "2024-05-01"⟩ []
        { question := "all provinces", table := "provinces" }).Ensures
      (fun call ↦ ∀ query, call = .post query →
        IsSafeQuery Catalog.airQuality "provinces" query) (fun _ ↦ True) ∧
    ∀ query : String,
      .post query ∈ ((Responder.mk ⟨Catalog.airQuality, .model, ⟨[]⟩, 4096, "2024-05-01"⟩
        1000).answer (⟨fun _ asked ↦ (⟨asked, .ok (.string "\x7d mutation \x7b")⟩, asked + 1),
          fun _ asked ↦ (⟨asked, .error (.unreachable "reset")⟩, asked + 1)⟩ : Peers Nat)
        "all provinces" ⟨0, 0, []⟩).2.calls →
      .post query ∈ ([] : List Call) ∨ ∃ table, IsSafeQuery Catalog.airQuality table query :=
  ⟨isNamed_airQuality,
    (posts_isSafeQuery ⟨Catalog.airQuality, .model, ⟨[]⟩, 4096, "2024-05-01"⟩
      isNamed_airQuality).1 [] { question := "all provinces", table := "provinces" },
    (posts_isSafeQuery ⟨Catalog.airQuality, .model, ⟨[]⟩, 4096, "2024-05-01"⟩
      isNamed_airQuality).2 _ 1000 "all provinces" ⟨0, 0, []⟩⟩

end AirInquiry
