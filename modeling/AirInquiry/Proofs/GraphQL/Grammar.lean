import AirInquiry.Proofs.GraphQL.Token

/-!
# The grammar of GraphQL documents

The grammar of executable documents over tokens: operations of every kind, with or without a name,
with parameters, directives, labelled fields, fragments and both kinds of spreads, and constants and
other values. `definitionsOf?` reads a text as the definitions of a document, and has a result for
exactly the texts that are one.

A reader takes a piece off the front of a list of tokens. Repetition (`pieces`) goes on while tokens
get fewer, and nesting is as deep as there are tokens.
-/

set_option autoImplicit false
set_option relaxedAutoImplicit false

namespace AirInquiry.GraphQL.Grammar

/-- A value. Numbers are kept as they are written. -/
inductive Value where
  | parameter (name : String)
  | integer (text : String)
  | float (text : String)
  | string (text : String)
  | block (text : String)
  | boolean (value : Bool)
  | null
  | enumeration (name : String)
  | list (items : List Value)
  | object (fields : List (String × Value))
  deriving Repr

/-- A directive with its arguments. -/
structure Directive where
  name : String
  arguments : List (String × Value)
  deriving Repr

/-- A member of a selection set: a field, which may have a label in place of its name in the
answer, a spread of a fragment, or an inlined fragment. -/
inductive Selection where
  | field (label : Option String) (name : String) (arguments : List (String × Value))
      (directives : List Directive) (inner : List Selection)
  | spread (name : String) (directives : List Directive)
  | inlined (type : Option String) (directives : List Directive) (inner : List Selection)
  deriving Repr

/-- The type of a parameter. -/
inductive TypeReference where
  | named (name : String)
  | list (item : TypeReference)
  | required (type : TypeReference)
  deriving Repr

/-- A parameter of an operation. -/
structure Parameter where
  name : String
  type : TypeReference
  default : Option Value
  directives : List Directive
  deriving Repr

/-- The kind of an operation. -/
inductive Kind where
  | query
  | mutation
  | subscription
  deriving DecidableEq, Repr

/-- A definition of a document. -/
inductive Definition where
  | operation (kind : Kind) (name : Option String) (parameters : List Parameter)
      (directives : List Directive) (selections : List Selection)
  | fragment (name type : String) (directives : List Directive) (selections : List Selection)
  deriving Repr

/-! ### Readers -/

/-- Takes a piece off the front of a list of tokens. -/
abbrev Reader (α : Type) := List Token → Option (α × List Token)

/-- Pieces one after another, as long as there are `more`. A piece that takes no token is none. -/
def pieces {α : Type} (more : List Token → Bool) (piece : Reader α) (tokens : List Token) :
    Option (List α × List Token) :=
  if more tokens then
    match piece tokens with
    | none => none
    | some (first, rest) =>
      if rest.length < tokens.length then
        (pieces more piece rest).map fun (others, rest) ↦ (first :: others, rest)
      else none
  else some ([], tokens)
termination_by tokens.length

/-- Whether a list of tokens starts with a mark. -/
def startsWith (char : Char) (tokens : List Token) : Bool := tokens.head? = some (.mark char)

/-- Pieces up to a closing mark, which is taken too. -/
def closed {α : Type} (closing : Char) (piece : Reader α) : Reader (List α) := fun tokens ↦
  (pieces (fun tokens ↦ !startsWith closing tokens) piece tokens).map fun (items, rest) ↦
    (items, rest.tail)

/-- Pieces between two marks, of which there is at least one. -/
def enclosed {α : Type} (opening closing : Char) (piece : Reader α) : Reader (List α) :=
  fun tokens ↦
    if startsWith opening tokens then
      match closed closing piece tokens.tail with
      | some (first :: others, rest) => some (first :: others, rest)
      | _ => none
    else none

/-- Pieces between two marks, or nothing if the opening mark is not there. -/
def optional {α : Type} (opening closing : Char) (piece : Reader α) : Reader (List α) :=
  fun tokens ↦
    if startsWith opening tokens then enclosed opening closing piece tokens else some ([], tokens)

/-- A name with a piece behind a colon. -/
def named {α : Type} (piece : Reader α) : Reader (String × α)
  | .name name :: .mark ':' :: rest => (piece rest).map fun (value, rest) ↦ ((name, value), rest)
  | _ => none

/-- The value of a word. -/
def wordValue (name : String) : Value :=
  if name = "true" then .boolean true
  else if name = "false" then .boolean false
  else if name = "null" then .null
  else .enumeration name

/-- A value nested at most to a given depth, without parameters if it has to be constant. -/
def value (constant : Bool) : (depth : Nat) → Reader Value
  | 0, _ => none
  | depth + 1, tokens =>
    match tokens with
    | .mark '$' :: .name name :: rest => if constant then none else some (.parameter name, rest)
    | .mark '[' :: rest =>
      (closed ']' (value constant depth) rest).map fun (items, rest) ↦ (.list items, rest)
    | .mark '{' :: rest =>
      (closed '}' (named (value constant depth)) rest).map fun (fields, rest) ↦
        (.object fields, rest)
    | .integer text :: rest => some (.integer text, rest)
    | .float text :: rest => some (.float text, rest)
    | .string text :: rest => some (.string text, rest)
    | .block text :: rest => some (.block text, rest)
    | .name name :: rest => some (wordValue name, rest)
    | _ => none

/-- The arguments at the start of a list of tokens. -/
def arguments (constant : Bool) (depth : Nat) : Reader (List (String × Value)) :=
  optional '(' ')' (named (value constant depth))

/-- One directive. -/
def directive (constant : Bool) (depth : Nat) : Reader Directive
  | .mark '@' :: .name name :: rest =>
    (arguments constant depth rest).map fun (arguments, rest) ↦ (⟨name, arguments⟩, rest)
  | _ => none

/-- The directives at the start of a list of tokens. -/
def directives (constant : Bool) (depth : Nat) : Reader (List Directive) :=
  pieces (startsWith '@') (directive constant depth)

/-- The name of a field behind the word that it starts with, which is a label if a colon and the
name stand behind it. -/
def labelled (first : String) : List Token → Option String × String × List Token
  | .mark ':' :: .name name :: rest => (some first, name, rest)
  | rest => (none, first, rest)

/-- One member of a selection set, nested at most to a given depth. -/
def selection : (depth : Nat) → Reader Selection
  | 0, _ => none
  | depth + 1, tokens =>
    match tokens with
    | .name first :: rest => do
      let (label, name, rest) := labelled first rest
      let (arguments, rest) ← arguments false depth rest
      let (directives, rest) ← directives false depth rest
      let (inner, rest) ← optional '{' '}' (selection depth) rest
      some (.field label name arguments directives inner, rest)
    | .spread :: .name "on" :: .name type :: rest => do
      let (directives, rest) ← directives false depth rest
      let (inner, rest) ← enclosed '{' '}' (selection depth) rest
      some (.inlined (some type) directives inner, rest)
    | .spread :: .name name :: rest => do
      let (directives, rest) ← if name = "on" then none else directives false depth rest
      some (.spread name directives, rest)
    | .spread :: rest => do
      let (directives, rest) ← directives false depth rest
      let (inner, rest) ← enclosed '{' '}' (selection depth) rest
      some (.inlined none directives inner, rest)
    | _ => none

/-- A type that a mark may make required. -/
def requiredIfMarked (type : TypeReference) : List Token → TypeReference × List Token
  | .mark '!' :: rest => (.required type, rest)
  | rest => (type, rest)

/-- A type nested at most to a given depth. -/
def typeReference : (depth : Nat) → Reader TypeReference
  | 0, _ => none
  | depth + 1, tokens =>
    match tokens with
    | .name name :: rest => some (requiredIfMarked (.named name) rest)
    | .mark '[' :: rest =>
      match typeReference depth rest with
      | some (item, .mark ']' :: rest) => some (requiredIfMarked (.list item) rest)
      | _ => none
    | _ => none

/-- The value behind an equality sign, if there is one. -/
def default (depth : Nat) : Reader (Option Value)
  | .mark '=' :: rest => (value true depth rest).map fun (value, rest) ↦ (some value, rest)
  | rest => some (none, rest)

/-- One parameter of an operation. -/
def parameter (depth : Nat) : Reader Parameter
  | .mark '$' :: .name name :: .mark ':' :: rest => do
    let (type, rest) ← typeReference depth rest
    let (default, rest) ← default depth rest
    let (directives, rest) ← directives true depth rest
    some (⟨name, type, default, directives⟩, rest)
  | _ => none

/-- The kind of operation that a word is for. -/
def kindOf? (word : String) : Option Kind :=
  if word = "query" then some .query
  else if word = "mutation" then some .mutation
  else if word = "subscription" then some .subscription
  else none

/-- A name, if there is one. -/
def optionalName : List Token → Option String × List Token
  | .name name :: rest => (some name, rest)
  | rest => (none, rest)

/-- One definition. A selection set by itself is a query. -/
def definition (depth : Nat) : Reader Definition
  | .name "fragment" :: .name name :: .name "on" :: .name type :: rest => do
    let (directives, rest) ← if name = "on" then none else directives false depth rest
    let (selections, rest) ← enclosed '{' '}' (selection depth) rest
    some (.fragment name type directives selections, rest)
  | .name word :: rest => do
    let kind ← kindOf? word
    let (name, rest) := optionalName rest
    let (parameters, rest) ← optional '(' ')' (parameter depth) rest
    let (directives, rest) ← directives false depth rest
    let (selections, rest) ← enclosed '{' '}' (selection depth) rest
    some (.operation kind name parameters directives selections, rest)
  | rest => do
    let (selections, rest) ← enclosed '{' '}' (selection depth) rest
    some (.operation .query none [] [] selections, rest)

/-- The definitions that the tokens of a document make up, of which there is at least one. -/
def definitions? (tokens : List Token) : Option (List Definition) :=
  match pieces (fun tokens ↦ !tokens.isEmpty) (definition tokens.length) tokens with
  | some (first :: others, _) => some (first :: others)
  | _ => none

/-- The definitions of the document that a text is. -/
def definitionsOf? (text : String) : Option (List Definition) :=
  (Token.ofText text.toList).bind definitions?

end AirInquiry.GraphQL.Grammar
