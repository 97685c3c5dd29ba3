import AirInquiry.Text.Search

/-!
# Media types

A media type is a type and a subtype with a slash between them, in any case of letters. A plus sign
cuts a suffix from the subtype, which names the form of the content. Parameters may follow behind a
semicolon; they have to be well formed and do not matter otherwise.
-/

set_option autoImplicit false
set_option relaxedAutoImplicit false

namespace AirInquiry

/-- A media type. -/
structure MediaType where
  main : List Char
  sub : List Char
  suffix : Option (List Char)
  deriving DecidableEq, Repr

namespace MediaType

/-- Whether a character belongs to a token. -/
def isTokenChar (c : Char) : Bool :=
  c.isAlphanum || "!#$%&'*+-.^_|~".toList.contains c || c.toNat = 0x60

/-- Whether a character may stand between quotation marks. -/
def isQuotedChar (c : Char) : Bool := 0x1f < c.toNat && c.toNat != 0x7f

/-- What follows a quoted text whose opening mark has been read. The first character never closes
it. -/
def afterQuoted : List Char → Option (List Char)
  | [] => none
  | first :: rest =>
    if isQuotedChar first then
      match rest.dropWhile fun c ↦ isQuotedChar c && c != '"' with
      | '"' :: behind => some behind
      | _ => none
    else none

theorem length_lt_of_afterQuoted {text behind : List Char}
    (h : afterQuoted text = some behind) : behind.length < text.length := by
  cases text with
  | nil => simp [afterQuoted] at h
  | cons first rest =>
    simp only [afterQuoted] at h
    split at h
    · split at h
      · next hdrop =>
        cases h
        have := (List.dropWhile_sublist (fun c ↦ isQuotedChar c && c != '"') (l := rest)).length_le
        rw [hdrop] at this
        simp only [List.length_cons] at this ⊢
        omega
      · cases h
    · cases h

/-- What follows the value of a parameter: nothing, or the text behind the next semicolon. -/
def afterValue (text : List Char) : Option (Option (List Char)) :=
  match text with
  | '"' :: quoted =>
    match afterQuoted quoted with
    | none => none
    | some behind =>
      match behind.dropWhile (· = ' ') with
      | [] => some none
      | ';' :: rest => some (some rest)
      | _ => none
  | _ =>
    match text.dropWhile isTokenChar with
    | [] => some none
    | ';' :: rest => if (text.takeWhile isTokenChar).isEmpty then none else some (some rest)
    | _ => none

theorem length_lt_of_afterValue {text rest : List Char}
    (h : afterValue text = some (some rest)) : rest.length < text.length := by
  unfold afterValue at h
  split at h
  · next quoted =>
    split at h
    · cases h
    · next behind hquoted =>
      have hlength := length_lt_of_afterQuoted hquoted
      split at h
      · cases h
      · next hdrop =>
        cases h
        have := (List.dropWhile_sublist (fun c : Char ↦ decide (c = ' ')) (l := behind)).length_le
        rw [hdrop] at this
        simp only [List.length_cons] at this ⊢
        omega
      · cases h
  · split at h
    · cases h
    · next hdrop =>
      split at h
      · cases h
      · cases h
        have := (List.dropWhile_sublist isTokenChar (l := text)).length_le
        rw [hdrop] at this
        simp only [List.length_cons] at this
        omega
    · cases h

/-- Whether a text is a list of parameters. Each may have spaces in front, and none need follow a
semicolon. -/
def areParameters (text : List Char) : Bool :=
  match text with
  | [] => true
  | ' ' :: rest => areParameters rest
  | c :: rest =>
    if isTokenChar c then
      match _h : rest.dropWhile isTokenChar with
      | '=' :: value =>
        match _hvalue : afterValue value with
        | none => false
        | some none => true
        | some (some next) => areParameters next
      | _ => false
    else false
termination_by text.length
decreasing_by
  · simp
  · have hdrop := (List.dropWhile_sublist isTokenChar (l := rest)).length_le
    rw [_h] at hdrop
    have := length_lt_of_afterValue _hvalue
    simp only [List.length_cons] at hdrop ⊢
    omega

/-- The parts of a subtype before and behind its last plus sign. A plus sign at the start belongs to
the subtype. -/
def splitSuffix (sub : List Char) : List Char × Option (List Char) :=
  let suffix := (sub.reverse.takeWhile (· ≠ '+')).reverse
  let stem := sub.take (sub.length - suffix.length - 1)
  if suffix.length < sub.length ∧ stem ≠ [] then (stem, some suffix) else (sub, none)

/-- The media type that a text names. -/
def parse? (text : String) : Option MediaType :=
  let chars := text.toList.map Char.toLower
  let main := chars.takeWhile isTokenChar
  match chars.dropWhile isTokenChar with
  | '/' :: rest =>
    let sub := rest.takeWhile isTokenChar
    let (stem, suffix) := splitSuffix sub
    match rest.dropWhile isTokenChar with
    | [] => if main.isEmpty then none else some ⟨main, stem, suffix⟩
    | ';' :: parameters =>
      if main.isEmpty || sub.isEmpty || !areParameters parameters then none
      else some ⟨main, stem, suffix⟩
    | _ => none
  | _ => none

/-- Whether a media type is one of JSON. -/
def isJson (mediaType : MediaType) : Bool :=
  mediaType.main = "application".toList &&
    (mediaType.sub = "json".toList || mediaType.suffix = some "json".toList)

end MediaType

end AirInquiry
