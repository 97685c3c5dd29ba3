import AirInquiry.Filter.Basic
import AirInquiry.Text.Lowercase

/-!
# Filters on a known name

A question that mentions a known name is about the rows that carry it. Rows carry a name in a field
of their own or in that of a related row. Where there is a second field for the name in lower case,
a match in either field is enough.
-/

set_option autoImplicit false
set_option relaxedAutoImplicit false

namespace AirInquiry.Inference

/-- The field for a name. -/
def nameField : String := "name"

/-- The field for a name in lower case. -/
def lowercaseNameField : String := "normalized_name"

/-- A pattern for all texts with a name in them. -/
def patternFor (name : String) : Json := .string ("%" ++ name ++ "%")

/-- The condition that a field of the row itself, or of the related row, matches a pattern. -/
def matching (relation : Option String) (field : String) (pattern : Json) :
    Except Refusal Filter := do
  let condition ← Condition.compare field (.scalar .likeIgnoringCase) (some pattern)
  match relation with
  | none => return .leaf condition
  | some relation => return .leaf (← Condition.through relation condition)

/-- The path of a field of the row itself, or of the related row. -/
def pathFrom (relation : Option String) (field : String) : String :=
  match relation with
  | none => field
  | some relation => relation ++ "." ++ field

/-- One filter, or a choice between several. -/
def oneOrAny : List Filter → Filter
  | [filter] => filter
  | filters => .or filters

/-- The filter on a name in the row itself or in the related row. -/
def filterByNameAt (relation : Option String) (name : String) (paths : List String) :
    Except Refusal Filter := do
  let plain ← matching relation nameField (patternFor name)
  if paths.contains (pathFrom relation lowercaseNameField) then
    let lowered ← matching relation lowercaseNameField (patternFor (Text.lowercase name))
    return oneOrAny [plain, lowered]
  else return oneOrAny [plain]

/-- The relation of a path that leads to the name of a directly related row. -/
def namedRelation? (path : String) : Option String :=
  let ending := ("." ++ nameField).toList
  let chars := path.toList
  if ending.isSuffixOf chars then
    let relation := chars.take (chars.length - ending.length)
    if relation.contains '.' then none else some (String.ofList relation)
  else none

/-- The least of several texts. -/
def least? : List String → Option String
  | [] => none
  | text :: rest =>
    match least? rest with
    | none => some text
    | some other => some (if other < text then other else text)

/-- The filter on a known name for the candidate paths, if one of them leads to a name. A field of
the row itself comes first, and then the relation that is least. -/
def filterByName (name : String) (paths : List String) : Option Filter :=
  if paths.contains nameField then (filterByNameAt none name paths).toOption
  else do
    let relation ← least? (paths.filterMap namedRelation?)
    (filterByNameAt (some relation) name paths).toOption

end AirInquiry.Inference
