import Criteria.Report.Envelope
import Criteria.Report.LabelTree
import Criteria.Report.Table
import Criteria.Text.Trim

/-!
# Criteria.Report.Render

How a command's result is shown. JSON is the whole envelope on one line of the output; the other
formats show the data there and speak of errors and warnings on the error stream. The values in an
envelope are handed to a library before they are written, which may refuse them.

* `render` shows the result.
* `emit` shows the result and its warnings.
-/

namespace Criteria

/-- The formats of the output. -/
inductive OutputFormat where
  | tree
  | text
  | repr
  | json
  deriving DecidableEq, Repr

namespace OutputFormat

def all : List OutputFormat := [.tree, .text, .repr, .json]

def name : OutputFormat → String
  | .tree => "tree"
  | .text => "text"
  | .repr => "repr"
  | .json => "json"

def ofName? (n : String) : Option OutputFormat :=
  all.find? fun f => f.name == n

end OutputFormat

/-- How results are shown. -/
structure ViewSettings where
  output : OutputFormat := .tree
  quiet : Bool := false
  verbosity : Int := 0

/-- What is written to the output and to the error stream. -/
structure Streams where
  out : String := ""
  err : String := ""
  deriving DecidableEq, Repr

def errorTitle (type : String) : String :=
  match String.ofList (Text.trim type.toList) with
  | "usage_error" => "Usage error"
  | "io_error" => "I/O error"
  | "parse_error" => "Parse error"
  | "not_implemented" => "Not supported"
  | "internal_error" => "Internal error"
  | _ => "Error"

/-- The hint, unless it is empty. -/
def hintText (hint : Option String) : String :=
  match hint with
  | some h => if h.isEmpty then "" else Text.onScreen ("Hint: " ++ h)
  | none => ""

def detailsText (details : List (String × Json)) : String :=
  String.join (details.map fun (name, j) => Text.onScreen ("  " ++ name ++ ": " ++ j.display))

/-- What is told about an error. -/
def errorText (s : ViewSettings) : Option ErrorInfo → String
  | none => Text.onScreen "Error"
  | some e =>
    let headline := Text.onScreen (errorTitle e.type ++ ": " ++ e.message)
    if s.quiet then headline
    else
      headline ++ hintText e.hint ++
        (if 1 ≤ s.verbosity then detailsText (e.details.getD []) else "")

/-- A member that is a text if it is there. -/
def textMember (j : Json) (name : String) : Except ViewError String :=
  match j.get? name with
  | none => .ok ""
  | some (.string s) => .ok s
  | some _ => .error .malformed

/-- What can be gone through: the items of a list, the names of an object, the characters of a
text. -/
def itemsOf : Json → Except ViewError (List Json)
  | .array items => .ok items
  | .object members => .ok (members.map fun m => .string m.1)
  | .string s => .ok (s.toList.map fun c => .string (String.singleton c))
  | _ => .error .malformed

/-- The items of a member, none if it is missing. -/
def listMember (j : Json) (name : String) : Except ViewError (List Json) :=
  match j.get? name with
  | none => .ok []
  | some v => itemsOf v

def textOf : Json → Except ViewError String
  | .string s => .ok s
  | _ => .error .malformed

/-- The text of a cell; nothing leaves the cell empty. -/
def cellOf : Json → Except ViewError String
  | .null => .ok ""
  | j => textOf j

def tokenColumns : List Column :=
  [{ title := "pos", alignRight := true }, { title := "type" }, { title := "literal" }]

def tokenRow (j : Json) : Except ViewError (List String) := do
  let pos ← j.need "pos"
  let type ← j.need "type"
  let literal ← j.need "literal"
  return [pos.display, ← cellOf type, ← cellOf literal]

/-- The query's text or structure as it is, or its tree. -/
def parseView (output : OutputFormat) (data : Json) : Except ViewError String :=
  match output with
  | .text | .repr => .ok (((data.get? output.name).getD (.string "")).display ++ "\n")
  | _ =>
    match LabelTree.ofJson ((data.get? "query").getD (.object [])) with
    | .error e => .error e
    | .ok t => .ok t.draw

/-- The tokens one after the other, or in a table. -/
def tokensView (output : OutputFormat) (data : Json) : Except ViewError String := do
  let tokens ← listMember data "tokens"
  match output with
  | .text => return " ".intercalate (← tokens.mapM fun t => t.need "text" >>= textOf) ++ "\n"
  | _ => return Table.draw tokenColumns (← tokens.mapM tokenRow)

def grammarLine (entry : String × Json) : Except ViewError String := do
  let words ← (← itemsOf entry.2).mapM textOf
  return Text.onScreen (entry.1 ++ ": " ++ ", ".intercalate words)

def versionView (data : Json) : Except ViewError String := do
  let version ← textMember data "version"
  let entries ←
    match data.get? "grammar" with
    | none => Except.ok []
    | some (.object members) => .ok members
    | some _ => .error .malformed
  return Text.onScreen version ++ String.join (← entries.mapM grammarLine)

/-- The data of a command that went well. -/
def dataView (output : OutputFormat) (command : String) (data : Json) : Except ViewError String :=
  let members :=
    match data with
    | .object members => Json.object members
    | _ => .object []
  match command with
  | "parse" => parseView output members
  | "tokens" => tokensView output members
  | "version" => versionView members
  | _ => .ok (Text.onScreen members.text)

/-- Shows a result. -/
def render (dump : Dump) (s : ViewSettings) (e : Envelope) : Except ViewError Streams :=
  match s.output with
  | .json =>
    match e.dumped dump with
    | .ok e => .ok { out := e.toJson.text ++ "\n" }
    | .error reason => .error (.refused reason)
  | output =>
    if e.ok then
      match dataView output e.command e.data with
      | .ok out => .ok { out }
      | .error err => .error err
    else .ok { err := errorText s e.error }

def warningsText (s : ViewSettings) (warnings : List String) : String :=
  if s.quiet || s.output = .json then ""
  else String.join (warnings.map fun w => Text.onScreen ("Warning: " ++ w))

/-- Shows a result and its warnings. -/
def emit (dump : Dump) (s : ViewSettings) (e : Envelope) : Except ViewError Streams :=
  match render dump s e with
  | .error err => .error err
  | .ok streams => .ok { streams with err := streams.err ++ warningsText s e.warnings }

end Criteria
