import AirInquiry.Proofs.GraphQL.Grammar
import AirInquiry.Proofs.GraphQL.Number

/-!
# Constants read back

A constant is writable if its numbers have the form of numbers, its words are names other than
`true`, `false` and `null`, and its keys are names (`Value.IsWritable`). The text of a writable
constant spells its tokens (`Value.spells_text`), and its tokens are read as the value of the same
shape (`Value.reading_tokens`). Every constant that comes from a JSON value is writable
(`Value.isWritable_ofJson`).

The tokens behind a constant do not matter, so both statements are about the constant in front of
any others. Both are proved by recursion over the constant, its items and its fields.
-/

set_option autoImplicit false
set_option relaxedAutoImplicit false

namespace AirInquiry.GraphQL

/-! ### Readers of several pieces -/

namespace Grammar

@[simp] theorem startsWith_mark (char other : Char) (rest : List Token) :
    startsWith char (.mark other :: rest) = decide (other = char) := by
  simp [startsWith]

@[simp] theorem startsWith_name (char : Char) (name : String) (rest : List Token) :
    startsWith char (.name name :: rest) = false := by
  simp [startsWith]

theorem closed_mark {α : Type} (closing : Char) (piece : Reader α) (rest : List Token) :
    closed closing piece (.mark closing :: rest) = some ([], rest) := by
  simp [closed, pieces]

/-- Assumes that the first piece leaves fewer tokens and does not start with the closing mark. -/
theorem closed_piece {α : Type} {closing : Char} {piece : Reader α} {tokens rest : List Token}
    {first : α} (hopen : startsWith closing tokens = false)
    (hpiece : piece tokens = some (first, rest)) (hless : rest.length < tokens.length) :
    closed closing piece tokens =
      (closed closing piece rest).map fun (others, rest) ↦ (first :: others, rest) := by
  have hmore : (!startsWith closing tokens) = true := by rw [hopen]; rfl
  rw [closed, pieces, if_pos hmore, hpiece]
  simp only [if_pos hless, closed, Option.map_map]
  rfl

/-- Assumes that at least one piece is read behind the opening mark. -/
theorem enclosed_mark {α : Type} {opening closing : Char} {piece : Reader α}
    {tokens rest : List Token} {first : α} {others : List α}
    (h : closed closing piece tokens = some (first :: others, rest)) :
    enclosed opening closing piece (.mark opening :: tokens) = some (first :: others, rest) := by
  simp [enclosed, h]

theorem optional_mark {α : Type} {opening closing : Char} {piece : Reader α}
    {tokens rest : List Token} {first : α} {others : List α}
    (h : closed closing piece tokens = some (first :: others, rest)) :
    optional opening closing piece (.mark opening :: tokens) = some (first :: others, rest) := by
  have hstart : startsWith opening (.mark opening :: tokens) = true := by simp
  rw [optional, if_pos hstart, enclosed_mark h]

theorem optional_absent {α : Type} {opening closing : Char} {piece : Reader α}
    {tokens : List Token} (h : startsWith opening tokens = false) :
    optional opening closing piece tokens = some ([], tokens) := by
  simp [optional, h]

theorem directives_absent {constant : Bool} {depth : Nat} {tokens : List Token}
    (h : startsWith '@' tokens = false) :
    directives constant depth tokens = some ([], tokens) := by
  simp [directives, pieces, h]

end Grammar

/-! ### Pieces between separators -/

theorem standsApart_of_isIgnored {c : Char} (h : Token.isIgnored c = true) :
    standsApart c = true := by
  simp only [Token.isIgnored, Bool.or_eq_true, decide_eq_true_eq] at h
  rcases h with ((((rfl | rfl) | rfl) | rfl) | rfl) | rfl <;> decide

/-- Assumes that there is a token behind what is passed over. -/
theorem Spells.ignored_append {piece : List Char} {tokens : List Token} (blank : List Char)
    (hblank : ∀ c ∈ blank, Token.isIgnored c = true) (hne : tokens ≠ [])
    (h : Spells piece tokens) : Spells (blank ++ piece) tokens := by
  induction blank with
  | nil => exact h
  | cons c blank ih =>
    rw [List.forall_mem_cons] at hblank
    exact Spells.ignored_cons hblank.1 hne (ih hblank.2)

/-- Pieces spell their tokens one after another if all that stands between them is passed over.
Assumes that further pieces have tokens. -/
theorem Spells.join_cons {blank piece : List Char} {pieces : List (List Char)}
    {tokens others : List Token} (hne : blank ≠ [])
    (hblank : ∀ c ∈ blank, Token.isIgnored c = true) (hpiece : Spells piece tokens)
    (hothers : pieces ≠ [] → others ≠ [])
    (hpieces : Spells (Text.joinChars blank pieces) others) :
    Spells (Text.joinChars blank (piece :: pieces)) (tokens ++ others) := by
  cases pieces with
  | nil =>
    have happend := Spells.append hpiece hpieces fun rest hrest ↦ hrest
    simpa only [Text.joinChars, List.append_nil] using happend
  | cons next pieces =>
    rw [Text.joinChars, List.append_assoc]
    · refine Spells.append hpiece (Spells.ignored_append blank hblank
        (hothers (List.cons_ne_nil _ _)) hpieces) fun rest _ ↦ ?_
      cases blank with
      | nil => exact absurd rfl hne
      | cons c blank =>
        exact apart_cons (standsApart_of_isIgnored (hblank c (by simp)))
    · simp

theorem Spells.bracketed {piece : List Char} {tokens : List Token} (opening closing : Char)
    (hopening : opening ∈ Token.marks) (hclosing : closing ∈ Token.marks)
    (h : Spells piece tokens) :
    Spells (opening :: piece ++ [closing]) (.mark opening :: tokens ++ [.mark closing]) := by
  have happly : ∀ mark ∈ Token.marks, standsApart mark = true := forall_mem_of_all (by decide)
  exact Spells.append (Spells.mark_cons hopening h) (Spells.mark_cons hclosing Spells.nil)
    fun rest _ ↦ apart_cons (happly closing hclosing)

/-- A block behind a name: braces with what is passed over behind the first and in front of the
second. -/
theorem Spells.braced {piece : List Char} {tokens : List Token} (before after : List Char)
    (hbefore : ∀ c ∈ before, Token.isIgnored c = true)
    (hafter : ∀ c ∈ after, Token.isIgnored c = true) (h : Spells piece tokens) :
    Spells (' ' :: '{' :: (before ++ piece) ++ (after ++ ['}']))
      (.mark '{' :: tokens ++ [.mark '}']) := by
  have hclosing : Spells (after ++ ['}']) [.mark '}'] :=
    Spells.ignored_append after hafter (List.cons_ne_nil _ _)
      (Spells.mark_cons (by decide) Spells.nil)
  have hinside : Spells (piece ++ (after ++ ['}'])) (tokens ++ [.mark '}']) := by
    refine Spells.append h hclosing fun rest _ ↦ ?_
    cases after with
    | nil => exact apart_cons (by decide)
    | cons c after => exact apart_cons (standsApart_of_isIgnored (hafter c (by simp)))
  have hopening := Spells.mark_cons (c := '{') (by decide)
    (Spells.ignored_append before hbefore (by simp) hinside)
  simpa only [List.append_assoc, List.cons_append] using
    Spells.ignored_cons (c := ' ') (by decide) (List.cons_ne_nil _ _) hopening

/-- A name with a block behind it. -/
theorem Spells.append_braced {first piece : List Char} {firstTokens tokens : List Token}
    (before after : List Char) (hbefore : ∀ c ∈ before, Token.isIgnored c = true)
    (hafter : ∀ c ∈ after, Token.isIgnored c = true) (hfirst : Spells first firstTokens)
    (h : Spells piece tokens) :
    Spells (first ++ (' ' :: '{' :: (before ++ piece) ++ (after ++ ['}'])))
      (firstTokens ++ (.mark '{' :: tokens ++ [.mark '}'])) :=
  Spells.append hfirst (Spells.braced before after hbefore hafter h)
    fun _ _ ↦ apart_cons (by decide)

namespace Value

/-! ### Tokens and trees of constants -/

/-- Whether the text of a number is that of an integer, which has only a sign and digits. -/
def isIntegerText (text : String) : Bool := text.toList.all fun c ↦ c = '-' || c.isDigit

/-- The token of a number. -/
def numberToken (text : String) : Token :=
  if isIntegerText text then .integer text else .float text

/-- The value of a number. -/
def numberTree (text : String) : Grammar.Value :=
  if isIntegerText text then .integer text else .float text

mutual

/-- The tokens of a constant. -/
def tokens : Value → List Token
  | .null => [.name "null"]
  | .boolean value => [.name (if value then "true" else "false")]
  | .number token => [numberToken token]
  | .string text => [.string text]
  | .word name => [.name name]
  | .list items => .mark '[' :: itemTokens items ++ [.mark ']']
  | .object fields => .mark '{' :: fieldTokens fields ++ [.mark '}']
termination_by structural value => value

/-- The tokens of the items of a list. -/
def itemTokens : List Value → List Token
  | [] => []
  | item :: rest => tokens item ++ itemTokens rest
termination_by structural items => items

/-- The tokens of the fields of an object. -/
def fieldTokens : List (String × Value) → List Token
  | [] => []
  | (key, value) :: rest => (.name key :: .mark ':' :: tokens value) ++ fieldTokens rest
termination_by structural fields => fields

end

mutual

/-- The value of the grammar that a constant is. -/
def tree : Value → Grammar.Value
  | .null => .null
  | .boolean value => .boolean value
  | .number token => numberTree token
  | .string text => .string text
  | .word name => .enumeration name
  | .list items => .list (itemTrees items)
  | .object fields => .object (fieldTrees fields)
termination_by structural value => value

/-- The values of the items of a list. -/
def itemTrees : List Value → List Grammar.Value
  | [] => []
  | item :: rest => tree item :: itemTrees rest
termination_by structural items => items

/-- The values of the fields of an object, under their keys. -/
def fieldTrees : List (String × Value) → List (String × Grammar.Value)
  | [] => []
  | (key, value) :: rest => (key, tree value) :: fieldTrees rest
termination_by structural fields => fields

end

mutual

/-- Every number, word and key inside a constant has the form of one. -/
def IsWritable : Value → Prop
  | .number token => IsInteger token.toList ∨
      ∃ whole fraction exponent, IsFloat token.toList whole fraction exponent
  | .word name => isName name = true ∧ name ∉ ["true", "false", "null"]
  | .list items => ItemsWritable items
  | .object fields => FieldsWritable fields
  | _ => True
termination_by structural value => value

/-- `IsWritable` for every item of a list. -/
def ItemsWritable : List Value → Prop
  | [] => True
  | item :: rest => item.IsWritable ∧ ItemsWritable rest
termination_by structural items => items

/-- The keys of fields are names, and their values are writable. -/
def FieldsWritable : List (String × Value) → Prop
  | [] => True
  | (key, value) :: rest => isName key = true ∧ value.IsWritable ∧ FieldsWritable rest
termination_by structural fields => fields

end

/-! ### The text spells the tokens -/

theorem isIntegerText_of_isInteger {text : String} (h : IsInteger text.toList) :
    isIntegerText text = true := by
  have hwhole : ∀ whole, IsWhole whole → ∀ c ∈ whole, (c = '-' || c.isDigit) = true := by
    intro whole hwhole c hc
    simp [hwhole.1.2 c hc]
  rw [isIntegerText, List.all_eq_true]
  rcases h with h | ⟨whole, htext, h⟩
  · exact hwhole _ h
  · rw [htext, List.forall_mem_cons]
    exact ⟨rfl, hwhole whole h⟩

/-- The point or the mark of the exponent is neither a sign nor a digit. -/
theorem isIntegerText_of_isFloat {text : String} {whole fraction exponent : List Char}
    (h : IsFloat text.toList whole fraction exponent) : isIntegerText text = false := by
  have hmark : ∃ c ∈ text.toList, (c = '-' || c.isDigit) = false := by
    rw [h.parts]
    rcases h.isMarked with hfraction | hexponent
    · obtain ⟨digits, rfl, -⟩ := h.isFraction.resolve_left hfraction
      exact ⟨'.', by simp, by decide⟩
    · obtain ⟨sign, digits, rfl, -, -⟩ := h.isExponent.resolve_left hexponent
      exact ⟨'e', by simp, by decide⟩
  obtain ⟨c, hc, hfalse⟩ := hmark
  rw [isIntegerText, Bool.eq_false_iff]
  intro hall
  rw [List.all_eq_true] at hall
  rw [hall c hc] at hfalse
  cases hfalse

theorem numberTree_of_isInteger {chars : List Char} (h : IsInteger chars) :
    numberTree (String.ofList chars) = .integer (String.ofList chars) := by
  rw [← String.toList_ofList (l := chars)] at h
  rw [numberTree, isIntegerText_of_isInteger h, if_pos rfl]

theorem numberTree_of_isFloat {chars whole fraction exponent : List Char}
    (h : IsFloat chars whole fraction exponent) :
    numberTree (String.ofList chars) = .float (String.ofList chars) := by
  rw [← String.toList_ofList (l := chars)] at h
  rw [numberTree, isIntegerText_of_isFloat h, if_neg Bool.false_ne_true]

theorem spells_number {text : String} (h : (Value.number text).IsWritable) :
    Spells text.toList [numberToken text] := by
  simp only [IsWritable] at h
  unfold numberToken
  rcases h with h | ⟨whole, fraction, exponent, h⟩
  · simpa [isIntegerText_of_isInteger h] using spells_integer h
  · simpa [isIntegerText_of_isFloat h] using spells_float h

theorem spells_boolText (value : Bool) :
    Spells (Json.boolText value) [.name (if value then "true" else "false")] := by
  cases value with
  | true => exact spells_name (by decide)
  | false => exact spells_name (by decide)

theorem tokens_ne_nil (value : Value) : value.tokens ≠ [] := by
  cases value <;> simp [tokens]

theorem itemTokens_ne_nil {items : List Value} (h : itemTexts items ≠ []) :
    itemTokens items ≠ [] := by
  cases items with
  | nil => exact absurd rfl h
  | cons item rest => exact List.append_ne_nil_of_left_ne_nil (tokens_ne_nil item) _

theorem fieldTokens_ne_nil {fields : List (String × Value)} (h : fieldTexts fields ≠ []) :
    fieldTokens fields ≠ [] := by
  cases fields with
  | nil => exact absurd rfl h
  | cons field rest => exact List.cons_ne_nil _ _

theorem isIgnored_separator : ∀ c ∈ separator, Token.isIgnored c = true :=
  forall_mem_of_all (by decide)

mutual

theorem spells_text : ∀ {value : Value}, value.IsWritable → Spells value.text value.tokens
  | .null, _ => spells_name (by decide)
  | .boolean value, _ => spells_boolText value
  | .number token, h => spells_number h
  | .string text, _ => spells_quotedText text
  | .word name, h => by
    simp only [IsWritable] at h
    exact spells_name h.1
  | .list items, h => by
    simp only [IsWritable] at h
    exact Spells.bracketed '[' ']' (by decide) (by decide) (spells_itemTexts h)
  | .object fields, h => by
    simp only [IsWritable] at h
    exact Spells.bracketed '{' '}' (by decide) (by decide) (spells_fieldTexts h)

theorem spells_itemTexts : ∀ {items : List Value}, ItemsWritable items →
    Spells (Text.joinChars separator (itemTexts items)) (itemTokens items)
  | [], _ => Spells.nil
  | item :: rest, h => by
    simp only [ItemsWritable] at h
    exact Spells.join_cons (by decide) isIgnored_separator (spells_text h.1) itemTokens_ne_nil
      (spells_itemTexts h.2)

theorem spells_fieldTexts : ∀ {fields : List (String × Value)}, FieldsWritable fields →
    Spells (Text.joinChars separator (fieldTexts fields)) (fieldTokens fields)
  | [], _ => Spells.nil
  | (key, value) :: rest, h => by
    simp only [FieldsWritable] at h
    have hvalue : Spells (':' :: ' ' :: value.text) (.mark ':' :: value.tokens) :=
      Spells.mark_cons (by decide)
        (Spells.ignored_cons (by decide) (tokens_ne_nil value) (spells_text h.2.1))
    have hfield : Spells (key.toList ++ ':' :: ' ' :: value.text)
        ([.name key] ++ .mark ':' :: value.tokens) :=
      Spells.append (spells_name h.1) hvalue fun rest _ ↦ apart_cons (by decide)
    exact Spells.join_cons (by decide) isIgnored_separator hfield fieldTokens_ne_nil
      (spells_fieldTexts h.2.2)

end

/-! ### The tokens are read as the tree -/

theorem reading_numberToken (constant : Bool) (depth : Nat) (text : String) (rest : List Token) :
    Grammar.value constant (depth + 1) (numberToken text :: rest) =
      some (numberTree text, rest) := by
  unfold numberToken numberTree
  split <;> rfl

/-- No constant starts with a mark that closes others. -/
theorem startsWith_tokens {closing : Char} (hclosing : closing = ']' ∨ closing = '}')
    (value : Value) (rest : List Token) :
    Grammar.startsWith closing (value.tokens ++ rest) = false := by
  cases value with
  | number token =>
    simp only [tokens, numberToken]
    split <;> rfl
  | list items => rcases hclosing with rfl | rfl <;> rfl
  | object fields => rcases hclosing with rfl | rfl <;> rfl
  | _ => rfl

mutual

theorem reading_tokens (constant : Bool) : ∀ {value : Value}, value.IsWritable →
    ∀ depth : Nat, value.tokens.length ≤ depth → ∀ rest : List Token,
      Grammar.value constant depth (value.tokens ++ rest) = some (value.tree, rest)
  | value, _, 0, hdepth, _ =>
    absurd (List.length_eq_zero_iff.1 (Nat.le_zero.1 hdepth)) (tokens_ne_nil value)
  | .null, _, _ + 1, _, _ => rfl
  | .boolean true, _, _ + 1, _, _ => rfl
  | .boolean false, _, _ + 1, _, _ => rfl
  | .number token, _, depth + 1, _, rest => reading_numberToken constant depth token rest
  | .string _, _, _ + 1, _, _ => rfl
  | .word name, h, depth + 1, _, rest => by
    simp only [IsWritable, List.mem_cons, List.not_mem_nil, or_false, not_or] at h
    simp [tokens, tree, Grammar.value, Grammar.wordValue, h.2]
  | .list items, h, depth + 1, hdepth, rest => by
    simp only [IsWritable] at h
    simp only [tokens, List.cons_append, List.length_cons, List.length_append,
      List.length_nil] at hdepth
    have hitems := reading_itemTokens constant h depth (by omega) rest
    simp only [tokens, List.cons_append, List.append_assoc, List.nil_append, Grammar.value, hitems]
    rfl
  | .object fields, h, depth + 1, hdepth, rest => by
    simp only [IsWritable] at h
    simp only [tokens, List.cons_append, List.length_cons, List.length_append,
      List.length_nil] at hdepth
    have hfields := reading_fieldTokens constant '}' h depth (by omega) rest
    simp only [tokens, List.cons_append, List.append_assoc, List.nil_append, Grammar.value, hfields]
    rfl

theorem reading_itemTokens (constant : Bool) : ∀ {items : List Value}, ItemsWritable items →
    ∀ depth : Nat, (itemTokens items).length ≤ depth → ∀ rest : List Token,
      Grammar.closed ']' (Grammar.value constant depth) (itemTokens items ++ .mark ']' :: rest) =
        some (itemTrees items, rest)
  | [], _, _, _, rest => Grammar.closed_mark ']' _ rest
  | item :: others, h, depth, hdepth, rest => by
    simp only [ItemsWritable] at h
    simp only [itemTokens, List.length_append] at hdepth
    have hitem := reading_tokens constant h.1 depth (by omega)
      (itemTokens others ++ .mark ']' :: rest)
    have hothers := reading_itemTokens constant h.2 depth (by omega) rest
    have hpos := List.length_pos_iff.2 (tokens_ne_nil item)
    rw [itemTokens, List.append_assoc, Grammar.closed_piece
      (startsWith_tokens (.inl rfl) item _) hitem (by simpa using hpos), hothers]
    rfl

/-- Fields are read up to the mark that closes them, in an object or behind a name. -/
theorem reading_fieldTokens (constant : Bool) (closing : Char) :
    ∀ {fields : List (String × Value)}, FieldsWritable fields → ∀ depth : Nat,
      (fieldTokens fields).length ≤ depth → ∀ rest : List Token,
      Grammar.closed closing (Grammar.named (Grammar.value constant depth))
        (fieldTokens fields ++ .mark closing :: rest) = some (fieldTrees fields, rest)
  | [], _, _, _, rest => Grammar.closed_mark closing _ rest
  | (key, value) :: others, h, depth, hdepth, rest => by
    simp only [FieldsWritable] at h
    simp only [fieldTokens, List.length_append, List.length_cons] at hdepth
    have hvalue := reading_tokens constant h.2.1 depth (by omega)
      (fieldTokens others ++ .mark closing :: rest)
    have hothers := reading_fieldTokens constant closing h.2.2 depth (by omega) rest
    have hfield : Grammar.named (Grammar.value constant depth) (.name key :: .mark ':' ::
        (value.tokens ++ (fieldTokens others ++ .mark closing :: rest))) =
        some ((key, value.tree), fieldTokens others ++ .mark closing :: rest) := by
      simp [Grammar.named, hvalue]
    simp only [fieldTokens, List.cons_append, List.append_assoc]
    rw [Grammar.closed_piece (Grammar.startsWith_name closing key _) hfield
      (by simp; omega), hothers]
    rfl

end

/-! ### Constants from JSON values -/

mutual

theorem isWritable_ofJson : ∀ value : Json, (ofJson value).IsWritable
  | .null => trivial
  | .bool _ => trivial
  | .number (.integer value) => by
    simp only [ofJson, IsWritable, String.toList_ofList]
    exact .inl (isInteger_text value)
  | .number (.float value) => by
    simp only [ofJson, IsWritable, String.toList_ofList]
    exact .inr (isFloat_dataText value)
  | .string _ => trivial
  | .array items => by
    simp only [ofJson, IsWritable]
    exact itemsWritable_ofJson items
  | .object entries => by
    simp only [ofJson, IsWritable]
    exact fieldsWritable_ofJson entries

theorem itemsWritable_ofJson : ∀ items : List Json, ItemsWritable (itemsOfJson items)
  | [] => trivial
  | item :: rest => ⟨isWritable_ofJson item, itemsWritable_ofJson rest⟩

theorem fieldsWritable_ofJson : ∀ entries : List (String × Json),
    FieldsWritable (fieldsOfJson entries)
  | [] => trivial
  | (key, value) :: rest => by
    simp only [fieldsOfJson]
    split
    · next hkey => exact ⟨hkey, isWritable_ofJson value, fieldsWritable_ofJson rest⟩
    · exact fieldsWritable_ofJson rest

end

end Value

end AirInquiry.GraphQL
