import AirInquiry.Client.Target
import AirInquiry.Json.Typed

/-!
# Exchanges over HTTP

A client sends a JSON value and gets a status and a text back. A request can only be made when the
values of its headers are allowed there; that is found out before anything is sent.
-/

set_option autoImplicit false
set_option relaxedAutoImplicit false

namespace AirInquiry.Client

/-- A request with a JSON body. -/
structure Request where
  target : String
  headers : List (String × String)
  body : Json

/-- What a host replies. -/
structure Reply where
  status : Nat
  text : String
  deriving DecidableEq, Repr

/-- Whether a text may be the value of a header. -/
def isHeaderValue (text : String) : Bool :=
  text.toList.all fun c ↦ c = '\t' || 0x20 ≤ c.toNat && c.toNat != 0x7f

/-- Whether a character does not count at the ends of a header's value. -/
def isHeaderBlank (c : Char) : Bool := c = ' ' || c = '\t'

/-- A header as it arrives, without the blanks around its value. -/
def header (name value : String) : String × String :=
  let start := value.toList.dropWhile isHeaderBlank
  (name, String.ofList (start.reverse.dropWhile isHeaderBlank).reverse)

/-- The header that announces a JSON body. -/
def jsonHeader : String × String := ("content-type", "application/json")

/-- What is wrong with a request that cannot be made. -/
def requestFault : String := "builder error"

/-- What is wrong with a reply that does not hold the wanted value. -/
def replyFault : String := "error decoding response body"

/-- Whether a status stands for success. -/
def isSuccess (status : Nat) : Bool := 200 ≤ status && status < 300

/-- The text of a reply; a reply of some statuses has none. -/
def Reply.content (reply : Reply) : String :=
  if reply.status = 204 ∨ reply.status = 304 then "" else reply.text

/-- A request with the reply of the peer that it is sent to. -/
structure Exchange (α : Type) where
  sent : Option Request
  outcome : α

/-- Sends a request if it can be made, and reads the reply. -/
def exchange {α : Type} (request : Option Request) (peer : Request → Reply)
    (read : Option Reply → α) : Exchange α :=
  match request with
  | none => ⟨none, read none⟩
  | some request => ⟨some request, read (some (peer request))⟩

end AirInquiry.Client
