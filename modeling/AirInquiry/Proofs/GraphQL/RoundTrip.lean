import AirInquiry.Proofs.GraphQL.Constant

/-!
# Queries read back

A query whose root is a name, whose arguments are writable and which selects something is a document
of one anonymous query without parameters and directives. Its single root field has the arguments
and the selection of the query, in their order (`Query.definitionsOf?_text`). A selected field of a
query has neither a label nor arguments nor directives (`Selection.tree`).

The proof goes by way of tokens: the text of a query spells them (`Query.spells_text`), and a field
is read from its tokens if what stands behind it can belong to no field (`EndsField`).
-/

set_option autoImplicit false
set_option relaxedAutoImplicit false

namespace AirInquiry.GraphQL

namespace Grammar

/-- A field without a label and directives is read from its name, its arguments and the fields
inside it. -/
theorem selection_name {depth : Nat} {name : String} {tokens behind rest : List Token}
    {fields : List (String × Value)} {inner : List Selection}
    (hlabel : startsWith ':' tokens = false)
    (harguments : arguments false depth tokens = some (fields, behind))
    (hdirectives : startsWith '@' behind = false)
    (hinner : optional '{' '}' (selection depth) behind = some (inner, rest)) :
    selection (depth + 1) (.name name :: tokens) =
      some (.field none name fields [] inner, rest) := by
  have hlabelled : labelled name tokens = (none, name, tokens) := by
    unfold labelled
    split
    · simp at hlabel
    · rfl
  simp only [selection, hlabelled, harguments, Option.bind_eq_bind, Option.bind_some,
    directives_absent hdirectives, hinner]

/-- An anonymous query is read from the selection behind its word. -/
theorem definition_query {depth : Nat} {tokens rest : List Token} {first : Selection}
    {others : List Selection}
    (h : closed '}' (selection depth) tokens = some (first :: others, rest)) :
    definition depth (.name "query" :: .mark '{' :: tokens) =
      some (.operation .query none [] [] (first :: others), rest) := by
  have hkind : kindOf? "query" = some .query := rfl
  have hparameters : optional '(' ')' (parameter depth) (.mark '{' :: tokens) =
      some ([], .mark '{' :: tokens) := optional_absent (by simp)
  have hdirectives : directives false depth (.mark '{' :: tokens) =
      some ([], .mark '{' :: tokens) := directives_absent (by simp)
  simp [definition, hkind, optionalName, hparameters, hdirectives, enclosed_mark h]

/-- One definition that takes all tokens is the document. -/
theorem definitions?_single {tokens : List Token} {only : Definition}
    (hne : tokens ≠ []) (h : definition tokens.length tokens = some (only, [])) :
    definitions? tokens = some [only] := by
  have hmore : (!tokens.isEmpty) = true := by simp [hne]
  have hpos : 0 < tokens.length := List.length_pos_iff.2 hne
  rw [definitions?, pieces, if_pos hmore, h]
  simp [hpos, pieces]

end Grammar

namespace Selection

/-! ### Selected fields -/

mutual

/-- The tokens of a selected field. -/
def tokens : Selection → List Token
  | .field name inner =>
    match inner with
    | [] => [.name name.text]
    | first :: rest =>
      .name name.text :: .mark '{' :: (tokens first ++ allTokens rest) ++ [.mark '}']
termination_by structural selection => selection

/-- The tokens of selected fields. -/
def allTokens : List Selection → List Token
  | [] => []
  | first :: rest => tokens first ++ allTokens rest
termination_by structural selections => selections

end

mutual

/-- The selection of the grammar that a selected field is. -/
def tree : Selection → Grammar.Selection
  | .field name inner => .field none name.text [] [] (trees inner)
termination_by structural selection => selection

/-- The selections that selected fields are. -/
def trees : List Selection → List Grammar.Selection
  | [] => []
  | first :: rest => tree first :: trees rest
termination_by structural selections => selections

end

theorem toList_opening : " \x7b ".toList = [' ', '{', ' '] := by rfl

theorem toList_closing : " \x7d".toList = [' ', '}'] := by rfl

theorem tokens_eq_name (selection : Selection) : ∃ name others,
    selection.tokens = .name name :: others := by
  obtain ⟨name, inner⟩ := selection
  cases inner with
  | nil => exact ⟨name.text, [], rfl⟩
  | cons first rest => exact ⟨name.text, _, rfl⟩

theorem allTokens_ne_nil {selections : List Selection} (h : texts selections ≠ []) :
    allTokens selections ≠ [] := by
  cases selections with
  | nil => exact absurd rfl h
  | cons first rest =>
    obtain ⟨name, others, htokens⟩ := tokens_eq_name first
    rw [allTokens, htokens]
    exact List.cons_ne_nil _ _

theorem isIgnored_blank : ∀ c ∈ [' '], Token.isIgnored c = true := forall_mem_of_all (by decide)

mutual

theorem spells_text : ∀ selection : Selection, Spells selection.text selection.tokens
  | .field name [] => by
    simpa only [text, tokens] using spells_name name.isName
  | .field name (first :: rest) => by
    have hinner : Spells (Text.joinChars [' '] (text first :: texts rest))
        (tokens first ++ allTokens rest) :=
      Spells.join_cons (by decide) isIgnored_blank (spells_text first) allTokens_ne_nil
        (spells_texts rest)
    have hfield := Spells.append_braced [' '] [' '] isIgnored_blank isIgnored_blank
      (spells_name name.isName) hinner
    simpa only [text, tokens, toList_opening, toList_closing, List.append_assoc, List.cons_append,
      List.nil_append] using hfield

theorem spells_texts : ∀ selections : List Selection,
    Spells (Text.joinChars [' '] (texts selections)) (allTokens selections)
  | [] => Spells.nil
  | first :: rest =>
    Spells.join_cons (by decide) isIgnored_blank (spells_text first) allTokens_ne_nil
      (spells_texts rest)

end

/-- None of the tokens can go on with a field that ends in front of them. -/
def EndsField (tokens : List Token) : Prop :=
  ∀ mark ∈ [':', '(', '@', '{'], Grammar.startsWith mark tokens = false

theorem endsField_closing (rest : List Token) : EndsField (.mark '}' :: rest) := by
  intro mark hmark
  simp only [List.mem_cons, List.not_mem_nil, or_false] at hmark
  rcases hmark with rfl | rfl | rfl | rfl <;> rfl

/-- A field ends in front of the fields behind it and of the mark that closes the selection. -/
theorem endsField_allTokens (selections : List Selection) (rest : List Token) :
    EndsField (allTokens selections ++ .mark '}' :: rest) := by
  cases selections with
  | nil => exact endsField_closing rest
  | cons first others =>
    obtain ⟨name, tail, htokens⟩ := tokens_eq_name first
    intro mark _
    rw [allTokens, htokens]
    exact Grammar.startsWith_name mark name _

mutual

theorem reading_tokens : ∀ (selection : Selection) (depth : Nat),
    selection.tokens.length ≤ depth → ∀ {rest : List Token}, EndsField rest →
      Grammar.selection depth (selection.tokens ++ rest) = some (selection.tree, rest)
  | .field name [], 0, hdepth, _, _ => absurd hdepth (by simp [tokens])
  | .field name [], depth + 1, _, rest, hends => by
    have harguments : Grammar.arguments false depth rest = some ([], rest) :=
      Grammar.optional_absent (hends '(' (by decide))
    exact Grammar.selection_name (hends ':' (by decide)) harguments (hends '@' (by decide))
      (Grammar.optional_absent (hends '{' (by decide)))
  | .field name (first :: others), 0, hdepth, _, _ => absurd hdepth (by simp [tokens])
  | .field name (first :: others), depth + 1, hdepth, rest, _ => by
    have hlength : (allTokens (first :: others)).length ≤ depth := by
      simp only [tokens, List.cons_append, List.length_cons, List.length_append] at hdepth
      simp only [allTokens, List.length_append]
      omega
    have hinner := reading_allTokens (first :: others) depth hlength rest
    have htokens : tokens (.field name (first :: others)) ++ rest =
        .name name.text :: .mark '{' :: (allTokens (first :: others) ++ .mark '}' :: rest) := by
      simp [tokens, allTokens]
    rw [htokens]
    exact Grammar.selection_name (by simp) (Grammar.optional_absent (by simp)) (by simp)
      (Grammar.optional_mark hinner)

theorem reading_allTokens : ∀ (selections : List Selection) (depth : Nat),
    (allTokens selections).length ≤ depth → ∀ rest : List Token,
      Grammar.closed '}' (Grammar.selection depth) (allTokens selections ++ .mark '}' :: rest) =
        some (trees selections, rest)
  | [], _, _, rest => Grammar.closed_mark '}' _ rest
  | first :: others, depth, hdepth, rest => by
    simp only [allTokens, List.length_append] at hdepth
    have hfirst := reading_tokens first depth (by omega)
      (endsField_allTokens others rest)
    have hothers := reading_allTokens others depth (by omega) rest
    obtain ⟨name, tail, htokens⟩ := tokens_eq_name first
    have hopen : Grammar.startsWith '}' (first.tokens ++ (allTokens others ++ .mark '}' :: rest)) =
        false := by
      rw [htokens]
      exact Grammar.startsWith_name '}' name _
    have hless : (allTokens others ++ .mark '}' :: rest).length <
        (first.tokens ++ (allTokens others ++ .mark '}' :: rest)).length := by
      rw [htokens]
      simp only [List.cons_append, List.length_cons, List.length_append]
      omega
    rw [allTokens, List.append_assoc, Grammar.closed_piece hopen hfirst hless, hothers]
    rfl

end

end Selection

namespace Query

/-! ### Whole queries -/

/-- The tokens of the arguments in their parentheses, if there are any. -/
def argumentTokens (query : Query) : List Token :=
  if query.arguments.isEmpty then []
  else .mark '(' :: Value.fieldTokens query.arguments ++ [.mark ')']

/-- The tokens of the root field. -/
def rootTokens (query : Query) : List Token :=
  .name query.root :: query.argumentTokens ++
    .mark '{' :: Selection.allTokens query.selection ++ [.mark '}']

/-- The root field of a query as a selection of the grammar. -/
def tree (query : Query) : Grammar.Selection :=
  .field none query.root (Value.fieldTrees query.arguments) [] (Selection.trees query.selection)

theorem spells_head {query : Query} (hroot : isName query.root = true)
    (harguments : Value.FieldsWritable query.arguments) :
    Spells query.head (.name query.root :: query.argumentTokens) := by
  unfold head argumentTokens
  split
  · exact spells_name hroot
  · have hbracketed := Spells.bracketed '(' ')' (by decide) (by decide)
      (Value.spells_fieldTexts harguments)
    have hhead := Spells.append (spells_name hroot) hbracketed fun _ _ ↦ apart_cons (by decide)
    simpa only [List.cons_append, List.append_assoc, List.nil_append] using hhead

/-- The text of the root field with its selection. -/
theorem spells_root {query : Query} (hroot : isName query.root = true)
    (harguments : Value.FieldsWritable query.arguments) :
    Spells (query.head ++ (' ' :: '{' :: ("\n    ".toList ++
      Text.joinChars [' '] (Selection.texts query.selection)) ++ ("\n  ".toList ++ ['}'])))
      query.rootTokens := by
  have hfield := Spells.append_braced "\n    ".toList "\n  ".toList
    (forall_mem_of_all (by decide)) (forall_mem_of_all (by decide))
    (spells_head hroot harguments) (Selection.spells_texts query.selection)
  simpa only [rootTokens, List.cons_append, List.append_assoc, List.nil_append] using hfield

theorem spells_text {query : Query} (hroot : isName query.root = true)
    (harguments : Value.FieldsWritable query.arguments) :
    Spells query.textChars (.name "query" :: .mark '{' :: query.rootTokens ++ [.mark '}']) := by
  have hopening : "query \x7b\n  ".toList = "query".toList ++ ' ' :: '{' :: "\n  ".toList := by rfl
  have hblock : " \x7b\n    ".toList = ' ' :: '{' :: "\n    ".toList := by rfl
  have hclosing : "\n  \x7d\n\x7d".toList = "\n  ".toList ++ '}' :: ['\n', '}'] := by rfl
  have hword : Spells "query".toList [.name "query"] := spells_name (by decide)
  have hquery := Spells.append_braced "\n  ".toList ['\n'] (forall_mem_of_all (by decide))
    (forall_mem_of_all (by decide)) hword
    (spells_root hroot harguments)
  simp only [List.append_assoc, List.cons_append, List.nil_append] at hquery
  unfold textChars
  simp only [hopening, hblock, hclosing]
  simpa only [List.append_assoc, List.cons_append] using hquery

theorem reading_argumentTokens {query : Query}
    (harguments : Value.FieldsWritable query.arguments) (depth : Nat)
    (hdepth : query.argumentTokens.length ≤ depth) (rest : List Token) :
    Grammar.arguments false depth (query.argumentTokens ++ .mark '{' :: rest) =
      some (Value.fieldTrees query.arguments, .mark '{' :: rest) := by
  unfold argumentTokens at hdepth ⊢
  cases hfields : query.arguments with
  | nil => exact Grammar.optional_absent (by simp)
  | cons first others =>
    rw [hfields] at harguments hdepth
    simp only [List.isEmpty_cons, Bool.false_eq_true, if_false, List.cons_append,
      List.length_cons, List.length_append] at hdepth ⊢
    have hread := Value.reading_fieldTokens false ')' harguments depth (by omega)
      (.mark '{' :: rest)
    simp only [List.append_assoc, List.nil_append, List.cons_append]
    exact Grammar.optional_mark hread

theorem reading_rootTokens {query : Query} (harguments : Value.FieldsWritable query.arguments)
    (hselection : query.selection ≠ []) (depth : Nat) (hdepth : query.rootTokens.length ≤ depth)
    (rest : List Token) :
    Grammar.selection depth (query.rootTokens ++ rest) = some (query.tree, rest) := by
  simp only [rootTokens, List.cons_append, List.length_cons, List.length_append] at hdepth
  obtain ⟨depth, rfl⟩ : ∃ smaller, depth = smaller + 1 := ⟨depth - 1, by omega⟩
  have hinner := Selection.reading_allTokens query.selection depth (by omega) rest
  have hread := reading_argumentTokens harguments depth (by omega)
    (Selection.allTokens query.selection ++ .mark '}' :: rest)
  have hlabel : Grammar.startsWith ':' (query.argumentTokens ++ .mark '{' ::
      (Selection.allTokens query.selection ++ .mark '}' :: rest)) = false := by
    unfold argumentTokens
    split <;> rfl
  have hblock : Grammar.optional '{' '}' (Grammar.selection depth) (.mark '{' ::
      (Selection.allTokens query.selection ++ .mark '}' :: rest)) =
      some (Selection.trees query.selection, rest) := by
    cases hfields : query.selection with
    | nil => exact absurd hfields hselection
    | cons first others =>
      rw [hfields] at hinner
      exact Grammar.optional_mark hinner
  have htokens : query.rootTokens ++ rest = .name query.root :: (query.argumentTokens ++
      .mark '{' :: (Selection.allTokens query.selection ++ .mark '}' :: rest)) := by
    simp [rootTokens]
  rw [htokens]
  exact Grammar.selection_name hlabel hread (by simp) hblock

theorem definitionsOf?_text {query : Query} (hroot : isName query.root = true)
    (harguments : Value.FieldsWritable query.arguments) (hselection : query.selection ≠ []) :
    Grammar.definitionsOf? query.text =
      some [.operation .query none [] [] [query.tree]] := by
  have htokens : Token.ofText query.text.toList =
      some (.name "query" :: .mark '{' :: query.rootTokens ++ [.mark '}']) := by
    rw [text, String.toList_ofList]
    exact (spells_text hroot harguments).ofText
  rw [Grammar.definitionsOf?, htokens, Option.bind_some]
  refine Grammar.definitions?_single (by simp) (Grammar.definition_query ?_)
  -- The only root field stands in front of the mark that closes the query.
  have hdepth : query.rootTokens.length ≤
      (Token.name "query" :: Token.mark '{' :: query.rootTokens ++ [Token.mark '}']).length := by
    simp only [List.cons_append, List.length_cons, List.length_append]
    omega
  have hread := reading_rootTokens harguments hselection _ hdepth [.mark '}']
  have hname : Grammar.startsWith '}' (query.rootTokens ++ [.mark '}']) = false := rfl
  have hless : [Token.mark '}'].length < (query.rootTokens ++ [Token.mark '}']).length := by
    simp only [rootTokens, List.cons_append, List.length_cons, List.length_append]
    omega
  have hclosed := Grammar.closed_piece hname hread hless
  rw [Grammar.closed_mark] at hclosed
  exact hclosed

end Query

end AirInquiry.GraphQL
