import AirInquiry.Constraints.Schema
import AirInquiry.Inference.Basic
import AirInquiry.Inference.Source
import AirInquiry.Peer.Dialogue
import AirInquiry.Prompt

/-!
# Finding constraints

Constraints are found for a question and the candidate fields of a table. They come from the rules,
or from the language model, which is shown the candidate fields and the earlier results, both cut to
a number of characters. A reply that holds no constraints, or constraints that constrain nothing,
gives none.
-/

set_option autoImplicit false
set_option relaxedAutoImplicit false

namespace AirInquiry

/-- Where constraints are found, and what has to be known for it. -/
structure ConstraintFinder where
  source : ConstraintSource
  names : NameIndex
  contextLimit : Nat
  today : String

namespace ConstraintFinder

/-- The candidate fields as they are shown to the model. -/
def fieldsText (fields : List FieldChoice) : String :=
  Json.compact (.array (fields.map FieldChoice.toPromptJson))

/-- The earlier results as they are shown to the model, if there are any. -/
def priorText (limit : Nat) (prior : Json.Entries) : Option String :=
  if prior.isEmpty then none else some (Text.truncate limit (Json.compact (.object prior)))

/-- What the model is asked. -/
def request (finder : ConstraintFinder) (question description : String) (fields : List FieldChoice)
    (prior : Json.Entries) : Completion.Request :=
  Completion.ask Prompt.constraintInstruction
    (Prompt.constraintQuestion question description
      (Text.truncate finder.contextLimit (fieldsText fields)) finder.today
      (priorText finder.contextLimit prior))
    ⟨"query_constraints", Constraints.schema, false⟩

/-- The constraints that a reply gives. -/
def ofReply (reply : Except Completion.Error Constraints) : Option Constraints :=
  reply.toOption.filter fun constraints ↦ !constraints.isEmpty

/-- Asks the model for constraints. -/
def ask (finder : ConstraintFinder) (question description : String) (fields : List FieldChoice)
    (prior : Json.Entries) : Dialogue (Option Constraints) := do
  let request := finder.request question description fields prior
  let reply ← Dialogue.completionAs Constraints.ofJson request
  pure (ofReply reply)

/-- Finds the constraints for a question; without candidate fields there are none. -/
def find (finder : ConstraintFinder) (question description : String) (fields : List FieldChoice)
    (prior : Json.Entries) : Dialogue (Option Constraints) :=
  if fields.isEmpty then pure none
  else
    match finder.source with
    | .rules =>
      pure (Inference.infer question fields prior finder.names finder.today)
    | .model => finder.ask question description fields prior

end ConstraintFinder

end AirInquiry
