import AirInquiry.GraphQL.Document
import AirInquiry.Proofs.GraphQL.Token
import Mathlib.Tactic.Common

/-!
# Pieces of text and their tokens

Reading a text one token after another comes to the text behind the last of them
(`Token.ReadsTo`). A piece of text spells a list of tokens when reading them ends right behind the
piece, in front of every text that stands apart from it (`Spells`). A text stands apart when its
first character cannot belong to the name, the number or the string in front of it (`Apart`). Pieces
are put together by `Spells.append`, `Spells.mark_cons` and `Spells.ignored_cons`.

The pieces of a query are spelled by `spells_name` and `spells_quotedText`: a name is one token, and
a quoted string is the one token that holds exactly the string, whatever characters are in it.
-/

set_option autoImplicit false
set_option relaxedAutoImplicit false

namespace AirInquiry.GraphQL

/-- What a check of the characters of a text one by one shows for all of them. -/
theorem forall_mem_of_all {p : Char → Prop} [DecidablePred p] {chars : List Char}
    (h : chars.all (fun c ↦ decide (p c)) = true) : ∀ c ∈ chars, p c := by
  intro c hc
  exact of_decide_eq_true (List.all_eq_true.1 h c hc)

/-- Whether a character can belong to no name, number or string that ends in front of it. -/
def standsApart (c : Char) : Bool := !(isNameRest c || c = '.' || c = '"')

/-- The first character of a text, if there is one, stands apart. -/
def Apart (text : List Char) : Prop := ∀ c ∈ text.head?, standsApart c = true

theorem apart_nil : Apart [] := by
  intro c hc
  cases hc

theorem apart_cons {c : Char} {rest : List Char} (h : standsApart c = true) :
    Apart (c :: rest) := by
  intro other hother
  cases hother
  exact h

/-! ### One token after another -/

namespace Token

/-- Tokens are read one after another, and the rest is what stands right behind the last of them. -/
inductive ReadsTo : List Char → List Token → List Char → Prop where
  | done (rest : List Char) : ReadsTo rest [] rest
  | ignored {c : Char} {text rest : List Char} {token : Token} {tokens : List Token}
      (hc : isIgnored c = true) (h : ReadsTo text (token :: tokens) rest) :
      ReadsTo (c :: text) (token :: tokens) rest
  | token {c : Char} {text rest : List Char} {token : Token} {count : Nat} {tokens : List Token}
      (hignored : isIgnored c = false) (hcomment : c ≠ '#')
      (hread : read? c text = some (token, count)) (h : ReadsTo (text.drop count) tokens rest) :
      ReadsTo (c :: text) (token :: tokens) rest

namespace ReadsTo

variable {text middle rest : List Char} {tokens others : List Token}

theorem trans (hfirst : ReadsTo text tokens middle) (hsecond : ReadsTo middle others rest) :
    ReadsTo text (tokens ++ others) rest := by
  induction hfirst with
  | done => exact hsecond
  | ignored hc _ ih => exact .ignored hc (ih hsecond)
  | token hignored hcomment hread _ ih => exact .token hignored hcomment hread (ih hsecond)

/-- The tokens of a text are those that are read first and then those of the rest. -/
theorem ofText_eq (h : ReadsTo text tokens rest) :
    ofText text = (ofText rest).map (tokens ++ ·) := by
  induction h with
  | done rest => simp
  | ignored hc _ ih => rw [ofText, if_pos hc, ih]
  | token hignored hcomment hread _ ih =>
    rw [ofText, if_neg (by simp [hignored]), if_neg hcomment, hread]
    simp only [ih, Option.map_map]
    rfl

end ReadsTo

end Token

/-- In front of every text that stands apart, reading the tokens ends right behind the piece. -/
def Spells (piece : List Char) (tokens : List Token) : Prop :=
  ∀ rest, Apart rest → Token.ReadsTo (piece ++ rest) tokens rest

namespace Spells

variable {piece first second : List Char} {tokens firstTokens secondTokens : List Token}

theorem nil : Spells [] [] := fun rest _ ↦ .done rest

/-- Assumes that there is a token behind the character that is passed over. -/
theorem ignored_cons {c : Char} (hc : Token.isIgnored c = true) (hne : tokens ≠ [])
    (h : Spells piece tokens) : Spells (c :: piece) tokens := by
  obtain ⟨token, others, rfl⟩ := List.exists_cons_of_ne_nil hne
  exact fun rest hrest ↦ .ignored hc (h rest hrest)

theorem mark_cons {c : Char} (hc : c ∈ Token.marks) (h : Spells piece tokens) :
    Spells (c :: piece) (.mark c :: tokens) := by
  intro rest hrest
  have hignored : ∀ mark ∈ Token.marks, Token.isIgnored mark = false ∧ mark ≠ '#' :=
    forall_mem_of_all (by decide)
  have hread : Token.read? c (piece ++ rest) = some (.mark c, 0) := by
    simp [Token.read?, hc]
  exact .token (hignored c hc).1 (hignored c hc).2 hread (h rest hrest)

/-- Assumes that the second piece stands apart from the first, with whatever is behind it. -/
theorem append (hfirst : Spells first firstTokens) (hsecond : Spells second secondTokens)
    (hapart : ∀ rest, Apart rest → Apart (second ++ rest)) :
    Spells (first ++ second) (firstTokens ++ secondTokens) := by
  intro rest hrest
  rw [List.append_assoc]
  exact (hfirst _ (hapart rest hrest)).trans (hsecond rest hrest)

end Spells

/-- A whole text that spells tokens has these tokens. -/
theorem Spells.ofText {text : List Char} {tokens : List Token} (h : Spells text tokens) :
    Token.ofText text = some tokens := by
  have hall := (h [] apart_nil).ofText_eq
  rw [List.append_nil, Token.ofText] at hall
  simpa using hall

/-- Assumes that reading one token takes exactly the piece. -/
theorem readsTo_of_read? {c : Char} {others rest : List Char} {token : Token}
    (hignored : Token.isIgnored c = false) (hcomment : c ≠ '#')
    (hread : Token.read? c (others ++ rest) = some (token, others.length)) :
    Token.ReadsTo (c :: others ++ rest) [token] rest := by
  rw [List.cons_append]
  refine .token hignored hcomment hread ?_
  rw [List.drop_left]
  exact .done rest

/-! ### Names -/

/-- What a list of characters with a property gives in front of a text that starts with none. -/
theorem takeWhile_append_of_head {p : Char → Bool} {chars rest : List Char}
    (hchars : ∀ c ∈ chars, p c = true) (hrest : ∀ c ∈ rest.head?, p c = false) :
    (chars ++ rest).takeWhile p = chars := by
  rw [List.takeWhile_append_of_pos hchars]
  cases rest with
  | nil => simp
  | cons c rest => simp [hrest c rfl]

theorem Apart.isNameRest_eq_false {rest : List Char} (h : Apart rest) :
    ∀ c ∈ rest.head?, isNameRest c = false := by
  intro c hc
  have hapart := h c hc
  simp only [standsApart, Bool.not_eq_true', Bool.or_eq_false_iff] at hapart
  exact hapart.1.1

theorem isNameStart_facts {c : Char} (h : isNameStart c = true) :
    c ∉ Token.marks ∧ Token.isIgnored c = false ∧ c ≠ '#' := by
  have hmarks : ∀ mark ∈ Token.marks, isNameStart mark = false := forall_mem_of_all (by decide)
  refine ⟨fun hc ↦ ?_, ?_, ?_⟩
  · rw [hmarks c hc] at h
    cases h
  · by_contra hignored
    simp only [Token.isIgnored, Bool.or_eq_true, decide_eq_true_eq, Bool.not_eq_false] at hignored
    rcases hignored with ((((rfl | rfl) | rfl) | rfl) | rfl) | rfl <;> revert h <;> decide
  · rintro rfl
    revert h
    decide

theorem spells_name {name : String} (h : isName name = true) : Spells name.toList [.name name] := by
  intro rest hrest
  unfold isName at h
  cases hname : name.toList with
  | nil =>
    rw [hname] at h
    cases h
  | cons c others =>
    rw [hname] at h
    simp only [isNameChars, Bool.and_eq_true, List.all_eq_true] at h
    obtain ⟨hmark, hignored, hcomment⟩ := isNameStart_facts h.1
    have hothers : (others ++ rest).takeWhile isNameRest = others :=
      takeWhile_append_of_head h.2 hrest.isNameRest_eq_false
    have hread : Token.read? c (others ++ rest) = some (.name name, others.length) := by
      simp only [Token.read?, List.contains_eq_mem, hmark, decide_false, Bool.false_eq_true,
        ↓reduceIte, h.1, hothers]
      rw [← hname, String.ofList_toList]
    exact readsTo_of_read? hignored hcomment hread

/-! ### Strings -/

/-- The hexadecimal digits of a control character are four, and their value is its code. -/
theorem hexDigits_control : ∀ code < 160,
    ((Json.fourHexDigits code).map Value.upperHexDigit).length = 4 ∧
      Token.hexValue? ((Json.fourHexDigits code).map Value.upperHexDigit) = some code ∧
      ((Json.fourHexDigits code).map Value.upperHexDigit).head? ≠ some '{' := by
  decide +kernel

theorem scalar?_toNat (c : Char) : Token.scalar? c.toNat = some c := by
  have hvalid : c.toNat.isValidChar := c.valid
  rw [Token.scalar?, if_pos hvalid, Char.ofNat_toNat]

theorem escape?_control {c : Char} (hc : Value.isControl c = true) (rest : List Char) :
    Token.escape?
        ('u' :: (Json.fourHexDigits c.toNat).map Value.upperHexDigit ++ rest) = some (c, 5) := by
  have hcode : c.toNat < 160 := by
    simp only [Value.isControl, Bool.or_eq_true, Bool.and_eq_true, decide_eq_true_eq] at hc
    omega
  obtain ⟨hlength, hvalue, hbrace⟩ := hexDigits_control c.toNat hcode
  generalize (Json.fourHexDigits c.toNat).map Value.upperHexDigit = digits at *
  have hfixed : Token.fixedEscape? (digits ++ rest) = some (c, 4) := by
    have htake : (digits ++ rest).take 4 = digits := by rw [← hlength, List.take_left]
    simp [Token.fixedEscape?, htake, hvalue, scalar?_toNat, hlength]
  cases digits with
  | nil => cases hlength
  | cons first others =>
    have hfirst : ∀ digits, first :: others ++ rest ≠ '{' :: digits := by
      rintro digits heq
      cases heq
      exact hbrace rfl
    rw [List.cons_append, Token.escape?, if_pos rfl, Token.codeEscape?.eq_2 _ hfirst, hfixed]
    rfl

/-- The text that escaping a character gives is read as the character. -/
theorem stringBody?_escapedChar (c : Char) (rest : List Char) :
    Token.stringBody? (Value.escapedChar c ++ rest) =
      (Token.stringBody? rest).map fun (text, count) ↦
        (c :: text, (Value.escapedChar c).length + count) := by
  -- An escape of one letter, of which the table knows the character.
  have hletter : ∀ letter, letter ≠ 'u' → (Token.letterEscapes.find? fun entry ↦
      entry.1 = letter) = some (letter, c) → Token.stringBody? ('\\' :: letter :: rest) =
      (Token.stringBody? rest).map fun (text, count) ↦ (c :: text, 2 + count) := by
    intro letter hu hfind
    rw [Token.stringBody?, if_neg (by decide), if_pos rfl, Token.escape?, if_neg hu, hfind]
    rfl
  unfold Value.escapedChar
  split
  · next hc => exact hletter '"' (by decide) (by rw [hc]; rfl)
  split
  · next hc => exact hletter '\\' (by decide) (by rw [hc]; rfl)
  split
  · next hc => exact hletter 'n' (by decide) (by rw [hc]; rfl)
  split
  · next hc => exact hletter 'r' (by decide) (by rw [hc]; rfl)
  split
  · next hc => exact hletter 't' (by decide) (by rw [hc]; rfl)
  split
  · next hcontrol =>
    have hlength := (hexDigits_control c.toNat (by
      simp only [Value.isControl, Bool.or_eq_true, Bool.and_eq_true, decide_eq_true_eq] at hcontrol
      omega)).1
    have hdrop : ('u' :: (Json.fourHexDigits c.toNat).map Value.upperHexDigit ++ rest).drop 5 =
        rest := by
      rw [List.cons_append, List.drop_succ_cons, ← hlength, List.drop_left]
    rw [List.cons_append, Token.stringBody?, if_neg (by decide), if_pos rfl,
      escape?_control hcontrol]
    simp only [hdrop, List.length_cons, hlength]
  · next hquote hbackslash hline hreturn _ _ =>
    have hends : Token.endsLine c = false := by simp [Token.endsLine, hline, hreturn]
    rw [List.singleton_append, Token.stringBody?, if_neg hquote, if_neg hbackslash,
      if_neg (by simp [hends])]
    rfl

theorem stringBody?_flatMap (chars rest : List Char) :
    Token.stringBody? (chars.flatMap Value.escapedChar ++ '"' :: rest) =
      some (chars, (chars.flatMap Value.escapedChar).length + 1) := by
  induction chars with
  | nil => simp [Token.stringBody?]
  | cons c chars ih =>
    rw [List.flatMap_cons, List.append_assoc, stringBody?_escapedChar, ih]
    simp [Nat.add_assoc]

theorem head?_escapedChar_ne (c : Char) : (Value.escapedChar c).head? ≠ some '"' := by
  unfold Value.escapedChar
  split
  · simp
  · next hquote =>
    split <;> try split <;> try split <;> try split <;> try split
    all_goals simp [hquote]

/-- A quoted string is no block string, if no quotation mark stands behind it. -/
theorem not_isPrefixOf_quoted (chars : List Char) {rest : List Char} (hrest : Apart rest) :
    ['"', '"'].isPrefixOf (chars.flatMap Value.escapedChar ++ '"' :: rest) = false := by
  cases chars with
  | nil =>
    cases rest with
    | nil => rfl
    | cons c rest =>
      have hc : c ≠ '"' := by
        rintro rfl
        exact absurd (hrest '"' rfl) (by decide)
      simp [List.isPrefixOf, Ne.symm hc]
  | cons c chars =>
    have hhead := head?_escapedChar_ne c
    rw [List.flatMap_cons]
    cases hescaped : Value.escapedChar c with
    | nil =>
      exact absurd hescaped (by unfold Value.escapedChar; split_ifs <;> simp)
    | cons first others =>
      rw [hescaped] at hhead
      have hfirst : first ≠ '"' := fun h ↦ hhead (by rw [h]; rfl)
      simp [List.isPrefixOf, Ne.symm hfirst]

theorem spells_quotedText (text : String) :
    Spells (Value.quotedText text) [.string text] := by
  intro rest hrest
  have hbody := stringBody?_flatMap text.toList rest
  have hblock := not_isPrefixOf_quoted text.toList hrest
  have hread : Token.read? '"' ((text.toList.flatMap Value.escapedChar ++ ['"']) ++ rest) =
      some (.string text, (text.toList.flatMap Value.escapedChar ++ ['"']).length) := by
    rw [List.append_assoc, List.singleton_append, Token.read?, if_neg (by decide),
      if_neg (by decide), if_pos rfl, Token.string?, if_neg (by simp [hblock]), hbody]
    simp
  exact readsTo_of_read? (by decide) (by decide) hread

end AirInquiry.GraphQL
