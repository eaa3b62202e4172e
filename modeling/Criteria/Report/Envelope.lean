import Criteria.Failure
import Criteria.Number.Written
import Criteria.Text.Truth

/-!
# Criteria.Report.Envelope

What a command hands over when it is done: whether it went well, its data and warnings, how long it
took, and its error if it failed. `Envelope.toJson` writes all of it and `Envelope.ofJson?` reads it
back, refusing members that do not belong there. Numbers and truth values may also be written as
texts, and stand for one another where nothing is lost.
-/

namespace Criteria

/-- Figures about a run. -/
structure Figures where
  durationMs : Int
  inputLength : Option Int := none

/-- The result of a command. -/
structure Envelope where
  ok : Bool
  command : String
  data : Json := .null
  warnings : List String := []
  figures : Figures
  error : Option ErrorInfo := none

/-- A value, or nothing. -/
def Json.ofOption {α : Type} (f : α → Json) : Option α → Json
  | none => .null
  | some a => f a

def ErrorInfo.toJson (e : ErrorInfo) : Json :=
  .object [("type", .string e.type), ("message", .string e.message),
    ("hint", .ofOption .string e.hint), ("details", .ofOption .object e.details)]

def Figures.toJson (f : Figures) : Json :=
  .object [("durationMs", .int f.durationMs), ("inputLength", .ofOption .int f.inputLength)]

def Envelope.toJson (e : Envelope) : Json :=
  .object [("ok", .bool e.ok), ("command", .string e.command), ("data", e.data),
    ("warnings", Json.strings e.warnings), ("meta", e.figures.toJson),
    ("error", .ofOption ErrorInfo.toJson e.error)]

/-- What a library makes of a value that is to be written as JSON, or why it refuses. -/
abbrev Dump : Type := Json → Except String Json

/-- The library that takes every value, unless it is nested too deeply. -/
def Dump.limited (limit : Nat) : Dump := fun j =>
  if j.depth ≤ limit then .ok j else .error "Circular reference detected (depth exceeded)"

/-- How deep the library of this program goes. -/
def dumpLimit : Nat := 255

def ErrorInfo.dumped (dump : Dump) (e : ErrorInfo) : Except String ErrorInfo := do
  let details ← e.details.mapM fun members => members.mapM fun m => do return (m.1, ← dump m.2)
  return { e with details }

/-- The envelope with its data and the details of its error as they are written. -/
def Envelope.dumped (dump : Dump) (e : Envelope) : Except String Envelope := do
  let data ← dump e.data
  let error ← e.error.mapM (ErrorInfo.dumped dump)
  return { e with data, error }

namespace Json

/-- The members of an object that has none but the named ones. -/
def membersWithin? (names : List String) : Json → Option (List (String × Json))
  | .object members => if members.all fun m => names.contains m.1 then some members else none
  | _ => none

def string? : Json → Option String
  | .string s => some s
  | _ => none

/-- A whole number of 64 bits that a float is, if it is one. -/
def wholeFloat? (x : Binary64) : Option Int :=
  x.toInt?.filter fun n => int64Min ≤ n && n ≤ int64Max

def int? : Json → Option Int
  | .int n => some n
  | .bool b => some (if b then 1 else 0)
  | .float x => wholeFloat? x
  | .string s => plainWholeNumber? s
  | _ => none

/-- Zero and one as truth values. -/
def truthOfInt? (n : Int) : Option Bool :=
  if n = 0 then some false else if n = 1 then some true else none

def bool? : Json → Option Bool
  | .bool b => some b
  | .int n => truthOfInt? n
  | .float x => (wholeFloat? x).bind truthOfInt?
  | .string s => Text.truthWord? s
  | _ => none

def object? : Json → Option (List (String × Json))
  | .object members => some members
  | _ => none

def strings? : Json → Option (List String)
  | .array items => items.mapM string?
  | _ => none

/-- A member that may be missing or null. -/
def optional? {α : Type} (read : Json → Option α) : Option Json → Option (Option α)
  | none => some none
  | some .null => some none
  | some j => (read j).map some

end Json

/-- A member that goes by one of two names, and not by both. -/
def lookupEither? (members : List (String × Json)) (a b : String) : Option (Option Json) :=
  match members.lookup a, members.lookup b with
  | some _, some _ => none
  | some j, none => some (some j)
  | none, j => some j

def Figures.ofJson? (j : Json) : Option Figures := do
  let ms ← j.membersWithin? ["durationMs", "duration_ms", "inputLength", "input_length"]
  let duration ← (← (← lookupEither? ms "durationMs" "duration_ms")).int?
  let length ← Json.optional? Json.int? (← lookupEither? ms "inputLength" "input_length")
  return ⟨duration, length⟩

def ErrorInfo.ofJson? (j : Json) : Option ErrorInfo := do
  let ms ← j.membersWithin? ["type", "message", "hint", "details"]
  let type ← (← ms.lookup "type").string?
  let message ← (← ms.lookup "message").string?
  let hint ← Json.optional? Json.string? (ms.lookup "hint")
  let details ← Json.optional? Json.object? (ms.lookup "details")
  return { type, message, hint, details }

def Envelope.ofJson? (j : Json) : Option Envelope := do
  let ms ← j.membersWithin? ["ok", "command", "data", "warnings", "meta", "error"]
  let ok ← (← ms.lookup "ok").bool?
  let command ← (← ms.lookup "command").string?
  let data := (ms.lookup "data").getD .null
  let warnings ←
    match ms.lookup "warnings" with
    | none => some []
    | some w => w.strings?
  let figures ← Figures.ofJson? (← ms.lookup "meta")
  let error ← Json.optional? ErrorInfo.ofJson? (ms.lookup "error")
  return { ok, command, data, warnings, figures, error }

end Criteria
