import AirInquiry.Text.Search

/-!
# Socket addresses

An address of version 4 is four numbers up to 255, one of version 6 eight groups of 16 bits. A port
stands behind it, and an address of version 6 is in brackets and may name a scope. In the text of
eight groups a run of zeros may be left out once, and the last two groups may be written like an
address of version 4. An address is shown in one form, whichever form it was read from.
-/

set_option autoImplicit false
set_option relaxedAutoImplicit false

namespace AirInquiry

/-- An address of version 4. -/
structure AddressV4 where
  first : UInt8
  second : UInt8
  third : UInt8
  fourth : UInt8
  deriving DecidableEq, Repr

/-- An address of version 6. -/
structure AddressV6 where
  groups : List UInt16
  length_groups : groups.length = 8
  deriving DecidableEq, Repr

/-- An address with a port. -/
inductive SocketAddress where
  | v4 (address : AddressV4) (port : UInt16)
  | v6 (address : AddressV6) (scope : UInt32) (port : UInt16)
  deriving DecidableEq, Repr

namespace SocketAddress

/-! ### Reading -/

/-- The value of a digit in a base of at most 16. -/
def digitValue? (base : Nat) (c : Char) : Option Nat :=
  let value :=
    if c.isDigit then c.toNat - '0'.toNat
    else if 'a' ≤ c ∧ c ≤ 'f' then c.toNat - 'a'.toNat + 10
    else if 'A' ≤ c ∧ c ≤ 'F' then c.toNat - 'A'.toNat + 10
    else base
  if value < base then some value else none

/-- The number below `limit` at the start of a text. All digits that stand there belong to it. -/
def number (base limit : Nat) (text : List Char) : Option (Nat × List Char) :=
  let digits := text.takeWhile fun c ↦ (digitValue? base c).isSome
  let value := digits.foldl (fun value c ↦ value * base + (digitValue? base c).getD 0) 0
  if digits.isEmpty || limit ≤ value then none else some (value, text.drop digits.length)

/-- A number with a largest number of digits. -/
def shortNumber (base limit digitLimit : Nat) (text : List Char) : Option (Nat × List Char) := do
  let (value, rest) ← number base limit text
  if text.length - rest.length ≤ digitLimit then some (value, rest) else none

/-- What follows a character that a text has to start with. -/
def behind (mark : Char) : List Char → Option (List Char)
  | [] => none
  | c :: rest => if c = mark then some rest else none

/-- One of the four numbers of an address, which has no zeros in front. -/
def octet (text : List Char) : Option (UInt8 × List Char) := do
  let (value, rest) ← shortNumber 10 256 3 text
  if text.head? = some '0' ∧ 1 < text.length - rest.length then none
  else some (UInt8.ofNat value, rest)

/-- The address of version 4 at the start of a text. -/
def addressV4 (text : List Char) : Option (AddressV4 × List Char) := do
  let (first, rest) ← octet text
  let (second, rest) ← octet (← behind '.' rest)
  let (third, rest) ← octet (← behind '.' rest)
  let (fourth, rest) ← octet (← behind '.' rest)
  some (⟨first, second, third, fourth⟩, rest)

/-- A text behind the colon that has to be in front of every group but the first. -/
def behindColon (isFirst : Bool) (text : List Char) : Option (List Char) :=
  if isFirst then some text else behind ':' text

/-- The two groups that an address of version 4 makes up. -/
def groupsOfV4 (address : AddressV4) : List UInt16 :=
  [address.first.toUInt16 * 256 + address.second.toUInt16,
    address.third.toUInt16 * 256 + address.fourth.toUInt16]

/-- At most `room` groups at the start of a text, and whether the last two of them were written like
an address of version 4, after which no group follows. -/
def groups : (room : Nat) → (isFirst : Bool) → List Char → List UInt16 × Bool × List Char
  | 0, _, text => ([], false, text)
  | room + 1, isFirst, text =>
    let inside := behindColon isFirst text
    match if room = 0 then none else inside.bind addressV4 with
    | some (address, rest) => (groupsOfV4 address, true, rest)
    | none =>
      match inside.bind (shortNumber 16 65536 4) with
      | none => ([], false, text)
      | some (value, rest) =>
        let (more, isV4, rest) := groups room false rest
        (UInt16.ofNat value :: more, isV4, rest)

/-- The address of groups in front of and behind a run of zeros. -/
def ofGroups? (front back : List UInt16) : Option AddressV6 :=
  let all := front ++ List.replicate (8 - front.length - back.length) 0 ++ back
  if h : all.length = 8 then some ⟨all, h⟩ else none

/-- The address of version 6 at the start of a text. -/
def addressV6 (text : List Char) : Option (AddressV6 × List Char) := do
  let (front, isV4, rest) := groups 8 true text
  if front.length = 8 then return (← ofGroups? front [], rest)
  else if isV4 then none
  else
    let rest ← behind ':' (← behind ':' rest)
    let (back, _, rest) := groups (7 - front.length) true rest
    return (← ofGroups? front back, rest)

/-- The port behind an address. -/
def port (text : List Char) : Option (UInt16 × List Char) := do
  let (value, rest) ← number 10 65536 (← behind ':' text)
  some (UInt16.ofNat value, rest)

/-- The scope behind an address, which is 0 if none is named. -/
def scope (text : List Char) : Option (UInt32 × List Char) :=
  match text with
  | '%' :: digits => do
    let (value, rest) ← number 10 UInt32.size digits
    some (UInt32.ofNat value, rest)
  | _ => some (0, text)

/-- The socket address of version 4 that a text is. -/
def parseV4? (text : List Char) : Option SocketAddress := do
  let (address, rest) ← addressV4 text
  let (port, rest) ← port rest
  if rest.isEmpty then some (.v4 address port) else none

/-- The socket address of version 6 that a text is. -/
def parseV6? (text : List Char) : Option SocketAddress := do
  let (address, rest) ← addressV6 (← behind '[' text)
  let (scope, rest) ← scope rest
  let (port, rest) ← port (← behind ']' rest)
  if rest.isEmpty then some (.v6 address scope port) else none

/-- The socket address that a text is. -/
def parse? (text : String) : Option SocketAddress :=
  (parseV4? text.toList).or (parseV6? text.toList)

/-! ### Showing -/

/-- The text of an address of version 4. -/
def textV4 (address : AddressV4) : String :=
  Text.join "." ([address.first, address.second, address.third, address.fourth].map fun octet ↦
    toString octet.toNat)

/-- The address of version 4 that stands behind the prefix for such addresses. -/
def mapped? (address : AddressV6) : Option AddressV4 :=
  match address.groups with
  | [0, 0, 0, 0, 0, 0xffff, front, back] =>
    some ⟨(front / 256).toUInt8, front.toUInt8, (back / 256).toUInt8, back.toUInt8⟩
  | _ => none

/-- The number of zeros at the start of some groups. -/
def zerosAt (groups : List UInt16) : Nat := (groups.takeWhile (· = 0)).length

/-- The place and length of the first of the longest runs of zeros. -/
def longestZeros (groups : List UInt16) : Nat × Nat :=
  (List.range groups.length).foldl (fun longest start ↦
    let count := zerosAt (groups.drop start)
    if longest.2 < count then (start, count) else longest) (0, 0)

/-- Groups in hexadecimal with colons between them. -/
def groupsText (groups : List UInt16) : String :=
  Text.join ":" (groups.map fun group ↦ String.ofList (Nat.toDigits 16 group.toNat))

/-- The text of an address of version 6. -/
def textV6 (address : AddressV6) : String :=
  match mapped? address with
  | some inner => "::ffff:" ++ textV4 inner
  | none =>
    let (start, count) := longestZeros address.groups
    if count ≤ 1 then groupsText address.groups
    else
      groupsText (address.groups.take start) ++ "::" ++
        groupsText (address.groups.drop (start + count))

/-- The text of a socket address. -/
def text : SocketAddress → String
  | .v4 address port => textV4 address ++ ":" ++ toString port.toNat
  | .v6 address scope port =>
    "[" ++ textV6 address ++ (if scope = 0 then "" else "%" ++ toString scope.toNat) ++ "]:" ++
      toString port.toNat

end SocketAddress

end AirInquiry
