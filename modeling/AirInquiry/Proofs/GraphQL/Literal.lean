import AirInquiry.Proofs.GraphQL.Constant

/-!
# Literals

A JSON value is written into a query as a constant, and its text says where it ends: reading a
constant off the front of a text takes exactly the literal, whatever text behind it starts with a
comma, a closing mark or a blank (`constantAt?_literal`). What is read is the value without the
entries whose keys are no names, at any depth. Numbers are read as they are written, and strings
character for character.

Reading a constant needs no more than the tokens it consists of, so the text behind it may be
anything. That is why `Token.lexed` goes on as far as there are tokens and notes the text behind
each of them.
-/

set_option autoImplicit false
set_option relaxedAutoImplicit false

namespace AirInquiry

namespace GraphQL

/-! ### Constants at the front of a text -/

namespace Token

/-- The tokens of a text, as far as there are any, each of them with the text behind it. -/
def lexed : List Char → List (Token × List Char)
  | [] => []
  | c :: rest =>
    if isIgnored c then lexed rest
    else if c = '#' then lexed (rest.dropWhile fun c ↦ !endsLine c)
    else
      match read? c rest with
      | none => []
      | some (token, count) => (token, rest.drop count) :: lexed (rest.drop count)
termination_by text => text.length
decreasing_by
  · simp
  · simpa only [List.length_cons] using
      Nat.lt_succ_of_le (List.dropWhile_sublist (fun c ↦ !endsLine c)).length_le
  · simp only [List.length_drop, List.length_cons]
    omega

/-- Tokens that are read one after another come first, and the rest is the text behind the last of
them. -/
theorem ReadsTo.exists_lexed_eq {text rest : List Char} {tokens : List Token}
    (h : ReadsTo text tokens rest) :
    ∃ read, lexed text = read ++ lexed rest ∧ read.map Prod.fst = tokens ∧
      (read.map Prod.snd).getLastD text = rest := by
  induction h with
  | done rest => exact ⟨[], rfl, rfl, rfl⟩
  | ignored hc _ ih =>
    obtain ⟨read, hlexed, htokens, hlast⟩ := ih
    refine ⟨read, by rw [lexed, if_pos hc, hlexed], htokens, ?_⟩
    obtain ⟨first, others, rfl, -, -⟩ := List.map_eq_cons_iff.1 htokens
    simpa only [List.map_cons, List.getLastD_cons] using hlast
  | @token c text rest token count tokens hignored hcomment hread _ ih =>
    obtain ⟨read, hlexed, htokens, hlast⟩ := ih
    refine ⟨(token, text.drop count) :: read, ?_, by rw [List.map_cons, htokens], ?_⟩
    · rw [lexed, if_neg (by simp [hignored]), if_neg hcomment, hread]
      simp only [hlexed, List.cons_append]
    · simpa only [List.map_cons, List.getLastD_cons] using hlast

end Token

namespace Grammar

/-- The constant at the front of a text, with the text behind the last token of it. -/
def constantAt? (text : List Char) : Option (Value × List Char) :=
  let lexed := Token.lexed text
  (value true lexed.length (lexed.map Prod.fst)).map fun (value, behind) ↦
    (value, ((lexed.take (lexed.length - behind.length)).map Prod.snd).getLastD text)

/-- Assumes that the tokens are read as a constant, whatever tokens are behind them. -/
theorem constantAt?_of_readsTo {text rest : List Char} {tokens : List Token} {tree : Value}
    (h : Token.ReadsTo text tokens rest)
    (hvalue : ∀ depth, tokens.length ≤ depth → ∀ behind,
      value true depth (tokens ++ behind) = some (tree, behind)) :
    constantAt? text = some (tree, rest) := by
  obtain ⟨read, hlexed, htokens, hlast⟩ := h.exists_lexed_eq
  have hlength : tokens.length ≤ (read ++ Token.lexed rest).length := by
    rw [← htokens, List.length_map, List.length_append]
    omega
  have htaken : (read ++ Token.lexed rest).take ((read ++ Token.lexed rest).length -
      ((Token.lexed rest).map Prod.fst).length) = read := by
    rw [List.length_map, List.length_append, Nat.add_sub_cancel, List.take_left]
  have hread := hvalue _ hlength ((Token.lexed rest).map Prod.fst)
  rw [← htokens, ← List.map_append] at hread
  simp only [constantAt?, hlexed, hread, Option.map_some, htaken, hlast]

end Grammar

/-- The text of a writable constant ends where the constant does. Assumes that what is behind it
stands apart. -/
theorem Value.constantAt?_text {value : Value} (h : value.IsWritable) {rest : List Char}
    (hrest : Apart rest) :
    Grammar.constantAt? (value.text ++ rest) = some (value.tree, rest) :=
  Grammar.constantAt?_of_readsTo (Value.spells_text h rest hrest) (Value.reading_tokens true h)

end GraphQL

/-! ### What a JSON value says -/

namespace Json

open GraphQL (isName)

mutual

/-- A JSON value without the entries whose keys are no names, at any depth. -/
def named : Json → Json
  | .array items => .array (namedItems items)
  | .object entries => .object (namedEntries entries)
  | value => value
termination_by structural value => value

/-- `named` for the items of a list. -/
def namedItems : List Json → List Json
  | [] => []
  | item :: rest => named item :: namedItems rest
termination_by structural items => items

/-- The entries whose keys are names, with `named` for their values. -/
def namedEntries : List (String × Json) → List (String × Json)
  | [] => []
  | (key, value) :: rest =>
    if isName key then (key, named value) :: namedEntries rest else namedEntries rest
termination_by structural entries => entries

end

mutual

/-- A JSON value as a value of the grammar: a number by its text, a string by its characters, and
lists and objects item by item and entry by entry. -/
def constant : Json → GraphQL.Grammar.Value
  | .null => .null
  | .bool value => .boolean value
  | .number (.integer value) => .integer (String.ofList (Number.integer value).text)
  | .number (.float value) => .float (String.ofList (Number.float value).text)
  | .string text => .string text
  | .array items => .list (itemConstants items)
  | .object entries => .object (entryConstants entries)
termination_by structural value => value

/-- The items of a list as values of the grammar. -/
def itemConstants : List Json → List GraphQL.Grammar.Value
  | [] => []
  | item :: rest => constant item :: itemConstants rest
termination_by structural items => items

/-- Entries with values of the grammar. -/
def entryConstants : List (String × Json) → List (String × GraphQL.Grammar.Value)
  | [] => []
  | (key, value) :: rest => (key, constant value) :: entryConstants rest
termination_by structural entries => entries

end

end Json

namespace GraphQL

namespace Value

mutual

theorem tree_ofJson : ∀ value : Json, (ofJson value).tree = value.named.constant
  | .null => rfl
  | .bool _ => rfl
  | .number (.integer value) => numberTree_of_isInteger (isInteger_text value)
  | .number (.float value) => by
    obtain ⟨whole, fraction, exponent, hfloat⟩ := isFloat_dataText value
    exact numberTree_of_isFloat hfloat
  | .string _ => rfl
  | .array items => congrArg Grammar.Value.list (itemTrees_itemsOfJson items)
  | .object entries => congrArg Grammar.Value.object (fieldTrees_fieldsOfJson entries)

theorem itemTrees_itemsOfJson : ∀ items : List Json,
    itemTrees (itemsOfJson items) = Json.itemConstants (Json.namedItems items)
  | [] => rfl
  | item :: rest => by
    rw [itemsOfJson, itemTrees, tree_ofJson item, itemTrees_itemsOfJson rest, Json.namedItems,
      Json.itemConstants]

theorem fieldTrees_fieldsOfJson : ∀ entries : List (String × Json),
    fieldTrees (fieldsOfJson entries) = Json.entryConstants (Json.namedEntries entries)
  | [] => rfl
  | (key, value) :: rest => by
    rw [fieldsOfJson, Json.namedEntries]
    split
    · rw [fieldTrees, tree_ofJson value, fieldTrees_fieldsOfJson rest, Json.entryConstants]
    · exact fieldTrees_fieldsOfJson rest

end

end Value

/-- Reading the literal of a JSON value takes exactly the literal and gives the value without the
entries whose keys are no names. Assumes that the text behind it, if there is any, starts with a
comma, a closing mark or a blank. -/
theorem constantAt?_literal (value : Json) {rest : List Char}
    (hrest : ∀ c ∈ rest.head?, c ∈ [',', ']', '}', ')', ' ']) :
    Grammar.constantAt? ((literal value).toList ++ rest) = some (value.named.constant, rest) := by
  have hapart : ∀ c ∈ [',', ']', '}', ')', ' '], standsApart c = true :=
    forall_mem_of_all (by decide)
  rw [literal, String.toList_ofList, ← Value.tree_ofJson]
  exact Value.constantAt?_text (Value.isWritable_ofJson value) fun c hc ↦ hapart c (hrest c hc)

/-- A key with a blank is no name, and the quotation mark that is never closed is left alone. -/
theorem constantAt?_literal_nested :
    (∀ c ∈ "] \"".toList.head?, c ∈ [',', ']', '}', ')', ' ']) ∧
      Grammar.constantAt? ((literal (.object [("at", .array [.number (.integer (-3)),
        .string "a\"\n\x7f", .object [("no name", .null), ("b", .bool true)]])])).toList ++
          "] \"".toList) =
        some (.object [("at", .list [.integer "-3", .string "a\"\n\x7f",
          .object [("b", .boolean true)]])], "] \"".toList) := by
  have hrest : ∀ c ∈ "] \"".toList.head?, c ∈ [',', ']', '}', ')', ' '] := by
    intro c hc
    cases hc
    decide
  exact ⟨hrest, constantAt?_literal _ hrest⟩

end GraphQL

end AirInquiry
