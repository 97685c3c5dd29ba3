import AirInquiry.Catalog.ChoiceSchema
import AirInquiry.Peer.Dialogue
import AirInquiry.Prompt
import AirInquiry.Selection.Object

/-!
# Selecting fields

The language model selects the fields of a table that a question needs. It is shown the schema of
the selection, cut to a number of characters. A table that is not known, a missing reply and a reply
that is no object all give no selection.
-/

set_option autoImplicit false
set_option relaxedAutoImplicit false

namespace AirInquiry.Lookup

/-- What the model is asked. -/
def selectionRequest (limit : Nat) (question description table : String) (schema : Json) :
    Completion.Request :=
  Completion.ask Prompt.selectionInstruction
    (Prompt.selectionQuestion question description (Text.truncate limit schema.pretty))
    ⟨table ++ "_fields", schema, true⟩

/-- The selection that a reply gives, with the identifier if anything is selected. -/
def selectionOfReply (catalog : Catalog) (table : String) (reply : Completion.Reply) :
    Option (List FieldChoice) :=
  match reply with
  | .ok value => (FieldChoice.ofObject catalog table value).map FieldChoice.withIdentifier
  | .error _ => none

/-- Selects the fields of a table for a question. -/
def select (catalog : Catalog) (limit : Nat) (question description table : String) :
    Dialogue (Option (List FieldChoice)) :=
  match catalog.choiceSchema table with
  | none => pure none
  | some schema => do
    let reply ← Dialogue.completion (selectionRequest limit question description table schema)
    pure (selectionOfReply catalog table reply)

end AirInquiry.Lookup
