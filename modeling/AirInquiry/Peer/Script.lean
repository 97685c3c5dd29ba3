import AirInquiry.Peer.Session
import AirInquiry.Text.Search

/-!
# Scripted peers

A script stands for the peers: it is a list of rules for completions and one for posts. A call is
answered by the first rule that applies to it and is not used up. A call that no rule applies to
gets an empty reply.
-/

set_option autoImplicit false
set_option relaxedAutoImplicit false

namespace AirInquiry

/-- A rule of a script. It applies to calls whose text has `part` in it, and to completions for the
named schema, as far as these are given. It is used up when no uses remain. -/
structure Rule (α : Type) where
  schema : Option String := none
  part : Option String := none
  uses : Option Nat := none
  delay : Nat := 0
  reply : α

namespace Rule

variable {α : Type}

/-- Whether a rule applies to a call and is not used up. -/
def applies (rule : Rule α) (schema : Option String) (text : String) : Bool :=
  rule.uses != some 0 && (rule.schema.isNone || rule.schema == schema) &&
    rule.part.all (Text.contains text)

/-- A rule after one use. -/
def used (rule : Rule α) : Rule α := { rule with uses := rule.uses.map (· - 1) }

/-- The first rule that applies to a call, with the rules after its use. -/
def take (schema : Option String) (text : String) :
    List (Rule α) → Option (Rule α) × List (Rule α)
  | [] => (none, [])
  | rule :: rest =>
    if rule.applies schema text then (some rule, rule.used :: rest)
    else
      let (found, rest) := take schema text rest
      (found, rule :: rest)

end Rule

/-- What a rule for completions replies. -/
inductive ScriptedCompletion where
  | answer (content : Json)
  | status (code : Nat) (body : String)
  | mismatch (reason : String)
  | nothing

/-- The reply to a request. -/
def ScriptedCompletion.reply (request : Completion.Request) : ScriptedCompletion → Completion.Reply
  | .answer content => .ok content
  | .status code body => .error (.status code body)
  | .mismatch reason => .error (.missesSchema request.target.name reason)
  | .nothing => .error .noContent

/-- The rules for completions and for posts. -/
structure Script where
  completions : List (Rule ScriptedCompletion) := []
  posts : List (Rule Transport.Reply) := []

namespace Script

/-- Answers a request for a completion. -/
def complete (request : Completion.Request) (script : Script) :
    Delayed Completion.Reply × Script :=
  let (found, completions) :=
    Rule.take (some request.target.name) request.lastContent script.completions
  match found with
  | none => (⟨0, .error .noContent⟩, script)
  | some rule => (⟨rule.delay, rule.reply.reply request⟩, { script with completions })

/-- Answers a query. -/
def post (query : String) (script : Script) : Delayed Transport.Reply × Script :=
  let (found, posts) := Rule.take none query script.posts
  match found with
  | none => (⟨0, .ok {}⟩, script)
  | some rule => (⟨rule.delay, rule.reply⟩, { script with posts })

/-- The peers that follow a script, which they remember as far as it is not used up. -/
def peers : Peers Script where
  complete := complete
  post := post

end Script

end AirInquiry
