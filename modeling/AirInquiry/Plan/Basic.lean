import AirInquiry.Json.Decode

/-!
# Plans

A plan is a first phase and possibly a second one. A phase is a list of inquiries, which are looked
up side by side; a second phase starts when the first one is done. A second phase without inquiries
does not count. A `PhaseCounter` goes through the phases.
-/

set_option autoImplicit false
set_option relaxedAutoImplicit false

namespace AirInquiry

/-- A question about one table, with what its lookup has brought. -/
structure Inquiry where
  question : String := ""
  description : String := ""
  table : String := ""
  data : Json.Entries := []
  query : String := ""
  error : Option String := none

/-- Inquiries that are looked up side by side. -/
structure Phase where
  inquiries : List Inquiry := []

/-- A first phase and possibly a second one. -/
structure Plan where
  first : Phase := {}
  second : Option Phase := none

namespace Inquiry

/-- Whether the lookup of an inquiry failed. -/
def hasFailed (inquiry : Inquiry) : Bool := inquiry.error.isSome

/-- The entry for the error, if there is one. -/
def errorEntry : Option String → List (String × Json)
  | none => []
  | some error => [("error", .string error)]

/-- An inquiry as a JSON value. -/
def toJson (inquiry : Inquiry) : Json :=
  .object ([("data", .object inquiry.data),
    ("description", .string inquiry.description)] ++ errorEntry inquiry.error ++
    [("query", .string inquiry.query), ("question", .string inquiry.question),
      ("table_name", .string inquiry.table)])

/-- The fields of an inquiry's record. -/
def recordFields : List (Json.Decode.Field Inquiry) :=
  [{ name := "question", required := true,
     read := fun value item ↦ do return { item with question := ← Json.Decode.string value } },
   { name := "description",
     read := fun value item ↦ do
       return { item with description := ← Json.Decode.string value } },
   { name := "table_name", required := true,
     read := fun value item ↦ do return { item with table := ← Json.Decode.string value } },
   { name := "data",
     read := fun value item ↦ do return { item with data := ← Json.Decode.map value } },
   { name := "query",
     read := fun value item ↦ do return { item with query := ← Json.Decode.string value } },
   { name := "error",
     read := fun value item ↦ do
       return { item with error := ← Json.Decode.optional Json.Decode.string value } }]

/-- Reads an inquiry. -/
def ofJson : Json → Except Json.Mismatch Inquiry :=
  Json.Decode.record "SubQuestion" recordFields {}

end Inquiry

namespace Phase

/-- Whether a phase has no inquiries. -/
def isEmpty (phase : Phase) : Bool := phase.inquiries.isEmpty

/-- A phase as a JSON value. -/
def toJson (phase : Phase) : Json :=
  .object [("sub_questions", .array (phase.inquiries.map Inquiry.toJson))]

/-- The fields of a phase's record. -/
def recordFields : List (Json.Decode.Field Phase) :=
  [{ name := "sub_questions",
     read := fun value _ ↦ do return ⟨← Json.Decode.list Inquiry.ofJson value⟩ }]

/-- Reads a phase. -/
def ofJson : Json → Except Json.Mismatch Phase := Json.Decode.record "Task" recordFields {}

end Phase

namespace Plan

/-- The second phase, if it has inquiries. -/
def presentSecond (plan : Plan) : Option Phase :=
  plan.second.filter fun phase ↦ !phase.isEmpty

/-- The number of phases that count. -/
def phaseCount (plan : Plan) : Nat := if plan.presentSecond.isSome then 2 else 1

/-- The phase of a number, counted from one. -/
def phase? (plan : Plan) : Nat → Option Phase
  | 1 => some plan.first
  | 2 => plan.presentSecond
  | _ => none

/-- The plan with another phase in the place of the one of a number. -/
def setPhase (plan : Plan) (number : Nat) (phase : Phase) : Plan :=
  match number with
  | 1 => { plan with first := phase }
  | 2 => { plan with second := some phase }
  | _ => plan

/-- All inquiries, those of the first phase in front. -/
def inquiries (plan : Plan) : List Inquiry :=
  plan.first.inquiries ++ (plan.second.map Phase.inquiries).getD []

/-- A plan as a JSON value. -/
def toJson (plan : Plan) : Json :=
  .object [("first_task", plan.first.toJson),
    ("second_task", Json.ofOption Phase.toJson plan.second)]

/-- The fields of a plan's record. -/
def recordFields : List (Json.Decode.Field Plan) :=
  [{ name := "first_task", required := true,
     read := fun value plan ↦ do return { plan with first := ← Phase.ofJson value } },
   { name := "second_task",
     read := fun value plan ↦ do
       return { plan with second := ← Json.Decode.optional Phase.ofJson value } }]

/-- Reads a plan. -/
def ofJson : Json → Except Json.Mismatch Plan := Json.Decode.record "TodoList" recordFields {}

end Plan

/-- The number of the phase to do next, and the number of phases. -/
structure PhaseCounter where
  index : Nat
  count : Nat
  deriving DecidableEq, Repr

namespace PhaseCounter

/-- The counter at the first phase of a plan. -/
def start (plan : Plan) : PhaseCounter := ⟨1, plan.phaseCount⟩

/-- The counter at the next phase. -/
def next (counter : PhaseCounter) : PhaseCounter := { counter with index := counter.index + 1 }

/-- Whether all phases are done. -/
def isFinished (counter : PhaseCounter) : Bool := counter.count < counter.index

end PhaseCounter

end AirInquiry
