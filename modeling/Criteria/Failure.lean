import Criteria.Json
import Criteria.ParseError

/-!
# Criteria.Failure

Why a command fails, and what it reports then: a kind, a message, perhaps a hint, and details.
-/

namespace Criteria

/-- What is told about a failure. -/
structure ErrorInfo where
  type : String
  message : String
  hint : Option String := none
  details : Option (List (String × Json)) := none

/-- A command that was used wrongly or could not get at its input. -/
structure CommandError where
  message : String
  exitCode : Int := 2
  type : String := "usage_error"
  details : Option (List (String × Json)) := none

/-- Why a command fails. -/
inductive Failure where
  /-- The text is not a query. -/
  | parse (e : ParseError)
  /-- The command was used wrongly, or its input cannot be read. -/
  | command (e : CommandError)
  /-- Anything else, under the name it has in logs. -/
  | internal (name message : String)

def ParseError.details (e : ParseError) : List (String × Json) :=
  ("errorType", .string e.name) ::
    match e with
    | .expected _ found =>
      [("token", .string found.text), ("tokenType", .string found.kind.name),
        ("position", .int found.pos)]
    | .numeral _ literal => [("text", .string literal)]
    | .unsupported feature => [("feature", .string feature)]
    | .other _ => []

namespace Failure

/-- What can be asked for instead of what is not supported. -/
def supported : String :=
  "Supported queries: and(...), or(...), eq/ne/le/ge/lt/gt(field,value)"

def name : Failure → String
  | .parse e => e.name
  | .command _ => "CLIError"
  | .internal name _ => name

/-- The classes of the error, from the narrowest on. -/
def classes : Failure → List String
  | .parse e => e.classes
  | e => [e.name]

def message : Failure → String
  | .parse e => e.message
  | .command e => e.message
  | .internal _ message => message

def exitCode : Failure → Int
  | .parse _ => 1
  | .command e => e.exitCode
  | .internal _ _ => 1

def info : Failure → ErrorInfo
  | .parse (.unsupported feature) =>
    { type := "not_implemented"
      message := (ParseError.unsupported feature).message
      hint := some supported
      details := some (ParseError.unsupported feature).details }
  | .parse e => { type := "parse_error", message := e.message, details := some e.details }
  | .command e => { type := e.type, message := e.message, details := e.details }
  | .internal name message =>
    { type := "internal_error", message := if message.isEmpty then name else message }

end Failure
end Criteria
