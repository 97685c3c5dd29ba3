import AirInquiry.Inference.Source
import AirInquiry.Settings.SocketAddress
import AirInquiry.Text.Quoted
import AirInquiry.Text.Unsigned

/-!
# Settings

The settings are read from named variables. A variable that is not set has a default; one that is
set to a value of the wrong form is an error, of which the first is reported.
-/

set_option autoImplicit false
set_option relaxedAutoImplicit false

namespace AirInquiry

/-- The settings of the service. Times are in seconds. -/
structure Settings where
  bindAddress : SocketAddress
  dataUrl : String
  dataSecret : String
  dataTimeout : Nat
  modelUrl : String
  modelKey : String
  modelName : String
  modelTimeout : Nat
  source : ConstraintSource
  contextLimit : Nat
  timeLimit : Nat
  databaseUrl : Option String
  knownNames : List String

namespace Settings

/-- The variables that are set. -/
abbrev Environment := List (String × String)

/-- Why a value has the wrong form. -/
inductive Cause where
  | address
  | unsigned (error : Text.UnsignedError)
  | source (word : String)
  deriving DecidableEq, Repr

/-- The wording of a wrong form. -/
def Cause.message : Cause → String
  | .address => "invalid socket address syntax"
  | .unsigned error => error.message
  | .source word => ConstraintSource.unknownMessage word

/-- A variable with a value of the wrong form. -/
structure Error where
  key : String
  value : String
  cause : Cause
  deriving DecidableEq, Repr

/-- The wording of a wrong value. -/
def Error.message (error : Error) : String :=
  "环境变量 " ++ error.key ++ " 的值无效: " ++ Text.quoted error.value ++ ": " ++
    error.cause.message

/-- The value of a variable that is set. -/
def value? (environment : Environment) (key : String) : Option String :=
  (environment.find? fun entry ↦ entry.1 = key).map (·.2)

/-- The value of a variable, or its default. -/
def valueOr (environment : Environment) (key default : String) : String :=
  (value? environment key).getD default

/-- A variable's value, or its default, read without the blanks around it. -/
def read {α : Type} (environment : Environment) (parse : String → Except Cause α)
    (key default : String) : Except Error α :=
  let value := valueOr environment key default
  (parse (Text.trim value)).mapError fun cause ↦ ⟨key, value, cause⟩

/-- Reads an address. -/
def address (text : String) : Except Cause SocketAddress :=
  match SocketAddress.parse? text with
  | some address => .ok address
  | none => .error .address

/-- Reads a number. -/
def word (text : String) : Except Cause Nat :=
  (Text.unsigned Text.wordLimit text.toList).mapError .unsigned

/-- Reads the name of a source of constraints. -/
def constraintSource (text : String) : Except Cause ConstraintSource :=
  (ConstraintSource.parse text).mapError .source

/-- The items between commas that are not blank, without the blanks around them. -/
def names (text : String) : List String :=
  ((Text.split ',' text).map Text.trim).filter fun name ↦ !name.isEmpty

/-- The settings that the variables give. -/
def ofEnvironment (environment : Environment) : Except Error Settings := do
  let bindAddress ← read environment address "BIND_ADDR" "0.0.0.0:3000"
  let dataTimeout ← read environment word "HASURA_TIMEOUT_SECS" "30"
  let modelTimeout ← read environment word "LLM_TIMEOUT_SECS" "60"
  let source ← read environment constraintSource "RESOLVER_MODE" "llm"
  let contextLimit ← read environment word "CONTEXT_CHAR_LIMIT" "4000"
  let timeLimit ← read environment word "REQUEST_TIMEOUT_SECS" "120"
  return {
    bindAddress
    dataUrl := valueOr environment "HASURA_URL" "http://localhost:8080/v1/graphql"
    dataSecret := valueOr environment "HASURA_ADMIN_SECRET" ""
    dataTimeout
    modelUrl := valueOr environment "LLM_BASE_URL" "https://api.openai.com/v1"
    modelKey := valueOr environment "LLM_API_KEY" ""
    modelName := valueOr environment "LLM_MODEL" "gpt-4o-mini"
    modelTimeout
    source
    contextLimit
    timeLimit
    databaseUrl := (value? environment "DATABASE_URL").filter fun url ↦ !Text.isBlankText url
    knownNames := names (valueOr environment "KNOWN_ENTITIES" "") }

end Settings

end AirInquiry
