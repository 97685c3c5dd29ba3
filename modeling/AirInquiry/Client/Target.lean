import AirInquiry.Text.Search

/-!
# Targets of requests

What is asked from a host is named by a path and possibly a query behind a question mark. Before it
is sent it is brought into a plain form: steps to the same or the outer directory are carried out,
and characters that may not stand there are written by the bytes of their encoding. Blanks at the
end and what stands behind a number sign are not sent.
-/

set_option autoImplicit false
set_option relaxedAutoImplicit false

namespace AirInquiry.Client

/-- A byte by a percent sign and two digits. -/
def escapedByte (byte : UInt8) : List Char :=
  let digit (value : Nat) : Char := (Nat.digitChar value).toUpper
  ['%', digit (byte.toNat / 16), digit (byte.toNat % 16)]

/-- A character by the bytes of its encoding. -/
def escapedChar (c : Char) : List Char :=
  (String.singleton c).toUTF8.toList.flatMap escapedByte

/-- Text in which the given characters and those that are not printable ASCII are escaped. -/
def escape (reserved : List Char) (text : List Char) : List Char :=
  text.flatMap fun c ↦
    if c.toNat ≤ 0x20 || 0x7f ≤ c.toNat || reserved.contains c then escapedChar c else [c]

/-- The characters that are escaped in a path. -/
def pathReserved : List Char := ['"', '#', '<', '>', '?', Char.ofNat 0x60, '{', '}']

/-- The characters that are escaped in a query. -/
def queryReserved : List Char := ['"', '#', '<', '>', '\'']

/-- The steps of a path, which start with a slash; a backslash counts as one. -/
def steps (path : List Char) : List (List Char) :=
  match Text.splitChars '/' (path.map fun c ↦ if c = '\\' then '/' else c) with
  | [] :: rest => rest
  | steps => steps

/-- A step in lower case, with an escaped point as a point. -/
def plainStep (step : List Char) : List Char :=
  match step.map Char.toLower with
  | ['%', '2', 'e'] => ['.']
  | ['%', '2', 'e', '.'] | ['.', '%', '2', 'e'] | ['%', '2', 'e', '%', '2', 'e'] => ['.', '.']
  | other => other

/-- The steps that remain of a path, the last one first, when those to the same and to the outer
directory are carried out. At the end of a path these leave the directory itself. -/
def walk (walked : List (List Char)) : List (List Char) → List (List Char)
  | [] => walked
  | step :: rest =>
    let isLast := rest.isEmpty
    match plainStep step with
    | ['.'] => walk (if isLast then [] :: walked else walked) rest
    | ['.', '.'] => walk (if isLast then [] :: walked.drop 1 else walked.drop 1) rest
    | _ => walk (escape pathReserved step :: walked) rest

/-- The part of an address that is sent. -/
def sentPart (address : List Char) : List Char :=
  let trimmed := (address.reverse.dropWhile fun c ↦ c.toNat ≤ 0x20).reverse
  (trimmed.filter fun c ↦ c != '\t' && c != '\n' && c != '\r').takeWhile (· ≠ '#')

/-- The target for an address on a host: a path, and possibly a query and a mark behind it. -/
def targetOf (address : String) : String :=
  let kept := sentPart address.toList
  let walked := walk [] (steps (kept.takeWhile (· ≠ '?')))
  let path := walked.reverse.flatMap fun step ↦ '/' :: step
  let query :=
    match kept.dropWhile (· ≠ '?') with
    | [] => []
    | _ :: query => '?' :: escape queryReserved query
  String.ofList ((if path.isEmpty then ['/'] else path) ++ query)

end AirInquiry.Client
