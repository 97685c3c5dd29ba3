import AirInquiry.Json.Decode

/-!
# Posting queries

The data service answers a query with data, with errors, or with both.
-/

set_option autoImplicit false
set_option relaxedAutoImplicit false

namespace AirInquiry

/-- An error that the data service reports. -/
structure ServiceError where
  message : String
  extensions : Option Json := none

/-- A reply of the data service. -/
structure Response where
  data : Option Json.Entries := none
  errors : Option (List ServiceError) := none

namespace ServiceError

/-- The entry for the extensions, if there are any. -/
def extensionsEntry : Option Json → List (String × Json)
  | none => []
  | some value => [("extensions", value)]

/-- A reported error as a JSON value. -/
def toJson (error : ServiceError) : Json :=
  .object (extensionsEntry error.extensions ++ [("message", .string error.message)])

/-- The fields of an error's record. -/
def recordFields : List (Json.Decode.Field ServiceError) :=
  [{ name := "message", required := true,
     read := fun value error ↦ do return { error with message := ← Json.Decode.string value } },
   { name := "extensions",
     read := fun value error ↦ do
       return { error with extensions := ← Json.Decode.optional Except.ok value } }]

/-- Reads a reported error. -/
def ofJson : Json → Except Json.Mismatch ServiceError :=
  Json.Decode.record "GraphqlError" recordFields ⟨"", none⟩

end ServiceError

namespace Response

/-- A reply as a JSON value. -/
def toJson (response : Response) : Json :=
  .object [("data", Json.ofOption Json.object response.data),
    ("errors", Json.ofOption (fun errors ↦ .array (errors.map ServiceError.toJson))
      response.errors)]

/-- The fields of a reply's record. -/
def recordFields : List (Json.Decode.Field Response) :=
  [{ name := "data",
     read := fun value response ↦ do
       return { response with data := ← Json.Decode.optional Json.Decode.map value } },
   { name := "errors",
     read := fun value response ↦ do
       return { response with
         errors := ← Json.Decode.optional (Json.Decode.list ServiceError.ofJson) value } }]

/-- Reads a reply. -/
def ofJson : Json → Except Json.Mismatch Response :=
  Json.Decode.record "GraphqlResponse" recordFields {}

end Response

namespace Transport

/-- Why a query got no reply. -/
inductive Error where
  | unreachable (detail : String)
  | status (code : Nat) (body : String)
  deriving DecidableEq, Repr

/-- The wording of a missing reply. -/
def Error.message : Error → String
  | .unreachable detail => "graphql request failed: " ++ detail
  | .status code body => "graphql endpoint returned status " ++ toString code ++ ": " ++ body

/-- A reply or the reason why there is none. -/
abbrev Reply := Except Error Response

end Transport

end AirInquiry
