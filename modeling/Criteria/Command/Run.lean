import Criteria.Command.Options
import Criteria.Command.Source
import Criteria.Log

/-!
# Criteria.Command.Run

The program as a function: from a command line, the environment, the files and the standard input to
an exit code, two streams and a log. No surrogate stands alone in a text that it is given, and it
reads queries of every depth; what it writes as JSON goes through a library that may refuse it.

* `CommandName.finding` is the work of a command on its text.
* `conclude` shows a report or a failure.
* `plan` is what a command line comes to before any query is read.
* `run` is the whole program.
-/

namespace Criteria
namespace Command

def version : String := "0.1.0"

/-- What the program is linked with. -/
structure Libraries where
  dump : Dump
  /-- The account of the calls that led to a failure, for a command and what it was to work on. -/
  trace : CommandName → Except Failure String → Failure → String

/-- The libraries of this program, which give no account of failures. -/
def Libraries.standard : Libraries where
  dump := .limited dumpLimit
  trace _ _ _ := ""

/-- What the program knows of the machine it runs on. -/
structure Host where
  runtime : String := "unknown"
  platform : String := "unknown"

/-- What a command found out. -/
structure Report where
  data : Json
  inputLength : Option Nat := none

/-- A report or a failure, and the warnings and the notes made on the way. -/
structure Finding where
  result : Except Failure Report
  warnings : List String := []
  records : List Log.Record := []

/-- The words that queries are made of, and those that are only reserved. -/
def grammar : List (String × List String) :=
  [("comparators", Comparator.all.map Comparator.word),
    ("combinators", Combinator.all.map Combinator.word),
    ("reserved", (Reserved.all.map Reserved.word).mergeSort fun a b => a ≤ b)]

def versionData (host : Host) : Json :=
  .object [("version", .string version), ("pythonVersion", .string host.runtime),
    ("platform", .string host.platform),
    ("grammar", .object (grammar.map fun (name, words) => (name, Json.strings words)))]

/-- Text after a query is left alone but not in silence. -/
def trailingWarning (t : Token) : String :=
  "Ignoring input after the query, starting at position " ++ intText t.pos ++
    " (" ++ t.describe ++ ")"

def trailingWarnings (w : Window) : List String :=
  if w.current.kind = .eof then [] else [trailingWarning w.current]

def queryData (q : Query) : Json :=
  .object [("query", q.toJson), ("text", .string q.text), ("repr", .string q.structureText)]

def parseFinding (text : String) : Finding :=
  let start := Window.ofText text
  let reading := parseQuery start
  { result :=
      match reading.result with
      | .error e => .error (.parse e)
      | .ok q => .ok { data := queryData q, inputLength := some text.length }
    warnings :=
      match reading.result with
      | .error _ => []
      | .ok _ => trailingWarnings reading.window
    records := reading.records start }

def tokenData (t : Token) : Json :=
  .object [("type", .string t.kind.name), ("literal", .string t.literal),
    ("text", .string t.text), ("pos", .int t.pos)]

def tokensFinding (text : String) : Finding :=
  let tokens := tokenize text
  { result := .ok
      { data := .object [("tokens", .array (tokens.map tokenData))]
        inputLength := some text.length }
    records := Log.tokenRecords tokens }

/-- The work of a command on its text; the version needs none. -/
def CommandName.finding (c : CommandName) (host : Host) (text : Except Failure String) : Finding :=
  match c, text with
  | .version, _ => { result := .ok { data := versionData host } }
  | _, .error e => { result := .error e }
  | .parse, .ok text => parseFinding text
  | .tokens, .ok text => tokensFinding text

/-- How a run ended. -/
structure Outcome where
  exitCode : Int
  streams : Streams := {}
  /-- The notes in each log file that was opened. -/
  logs : List (String × List Log.Record) := []
  /-- The log file that could not be opened, which ends the run at once, and why. -/
  escaped : Option (Path × FileError) := none

def failureEnvelope (c : CommandName) (durationMs : Nat) (warnings : List String) (e : Failure) :
    Envelope :=
  { ok := false
    command := c.word
    warnings
    figures := { durationMs }
    error := some e.info }

def successEnvelope (c : CommandName) (durationMs : Nat) (warnings : List String) (r : Report) :
    Envelope :=
  { ok := true
    command := c.word
    data := r.data
    warnings
    figures := { durationMs, inputLength := r.inputLength.map Int.ofNat } }

/-- The note that a command failed. A verbose run tells where the failure came from. -/
def failureRecord (c : CommandName) (verbosity : Int) (e : Failure) (trace : String) :
    Log.Record :=
  { author := .runner
    message := c.word ++ " failed with " ++ e.name
    trace := if 2 ≤ verbosity then trace else "" }

/-- A failure to show data counts as a failure of the command. -/
def viewFailure : ViewError → Failure
  | .missing name => .internal "KeyError" (Text.quoted name)
  | .unknownComparator => .internal "ValueError" "unknown comparator"
  | .malformed => .internal "TypeError" "malformed data"
  | .refused reason => .internal "ValueError" reason

section

variable (libs : Libraries) (view : ViewSettings) (c : CommandName) (text : Except Failure String)
  (durationMs : Nat)

/-- Shows a failure. One that cannot be shown ends the run. -/
def concludeFailure (journal : Log.Journal) (warnings : List String) (e : Failure) : Outcome :=
  let journal := journal.write (failureRecord c view.verbosity e (libs.trace c text e))
  match emit libs.dump view (failureEnvelope c durationMs warnings e) with
  | .error _ =>
    { exitCode := 1, streams := { err := journal.screenText }, logs := journal.files }
  | .ok streams =>
    { exitCode := e.exitCode
      streams := { streams with err := journal.screenText ++ streams.err }
      logs := journal.files }

/-- Shows what a command found out. -/
def conclude (journal : Log.Journal) (f : Finding) : Outcome :=
  let journal := journal.writeAll f.records
  match f.result with
  | .error e => concludeFailure libs view c text durationMs journal f.warnings e
  | .ok report =>
    match emit libs.dump view (successEnvelope c durationMs f.warnings report) with
    | .error e => concludeFailure libs view c text durationMs journal f.warnings (viewFailure e)
    | .ok streams =>
      { exitCode := 0
        streams := { streams with err := journal.screenText ++ streams.err }
        logs := journal.files }

end

def helpText : String :=
  String.join (List.map (fun l => l ++ "\n")
    ["Usage: rql [OPTIONS] COMMAND [ARGS]...",
      "",
      "Parse and inspect rql filter queries such as and(eq(foo,\"a\"),gt(n,1)).",
      "",
      "Options:",
      "  --output [tree|text|repr|json]  Output format.  [default: tree]",
      "  --json                          Alias for --output json.",
      "  -q, --quiet                     Suppress warnings and error details.",
      "  -v                              Increase verbosity (-v, -vv).",
      "  --log-file FILE                 Also write log records to this file.",
      "  --version                       Show the version and exit.",
      "  -h, --help                      Show this message and exit.",
      "",
      "Commands:",
      "  parse    Parse QUERY and print its tree.",
      "  tokens   Print the token stream of QUERY (standard input by default).",
      "  version  Show version information and the supported query keywords."])

def taskHelpText (c : CommandName) : String :=
  String.join (List.map (fun l => l ++ "\n")
    (if c.readsQuery then
      ["Usage: rql " ++ c.word ++ " [OPTIONS] [QUERY]",
        "",
        "Options:",
        "  -f, --file FILE  Read the query from a file.",
        "  -h, --help       Show this message and exit."]
    else
      ["Usage: rql " ++ c.word ++ " [OPTIONS]",
        "",
        "Options:",
        "  -h, --help  Show this message and exit."]))

/-- A command line that makes no sense. -/
def refuse (e : UsageError) (logs : List (String × List Log.Record)) : Outcome :=
  { exitCode := 2, streams := { err := "Error: " ++ e.message ++ "\n" }, logs }

/-- A command that is ready to start. -/
structure Job where
  command : CommandName
  view : ViewSettings
  folder : Folder
  journal : Log.Journal
  source : Except Failure Source

/-- What a command line comes to: it is over at once, or there is a job to do. -/
inductive Plan where
  | over (o : Outcome)
  | start (job : Job)

/-- The rest of the plan once the log is open. -/
def planTask (env : Environment) (options : Options) (c : CommandName) (args : List String)
    (folder : Folder) (journal : Log.Journal) : Plan :=
  match Task.read c args env folder with
  | .error e => .over (refuse e journal.files)
  | .ok .help =>
    .over { exitCode := 0, streams := { out := taskHelpText c }, logs := journal.files }
  | .ok (.work query file) =>
    .start { command := c, view := options.view, folder, journal
             source := Source.choose query file }

/-- Opens the log, which happens before the command's own arguments are read. -/
def openLog (folder : Folder) (options : Options) :
    Except (Path × FileError) (Folder × Log.Journal) :=
  let verbosity := options.view.verbosity
  match options.logFile with
  | none => .ok (folder, Log.Journal.configure {} verbosity none)
  | some path =>
    match folder.openToAppend path.direct with
    | .error e => .error (path.direct, e)
    | .ok folder => .ok (folder, Log.Journal.configure {} verbosity (some path.direct.text))

/-- What a command line comes to. -/
def plan (args : List String) (env : Environment) (folder : Folder) : Plan :=
  match Options.read args env folder with
  | .error e => .over (refuse e [])
  | .ok .version =>
    .over { exitCode := 0, streams := { out := "rql, version " ++ version ++ "\n" } }
  | .ok .help => .over { exitCode := 0, streams := { out := helpText } }
  | .ok (.run options c args) =>
    match openLog folder options with
    | .error e => .over { exitCode := 1, escaped := some e }
    | .ok (folder, journal) => planTask env options c args folder journal

namespace Job

/-- The text that the command works on. -/
def text (job : Job) (stdin : Input) : Except Failure String :=
  match job.source with
  | .error e => .error e
  | .ok source => source.read job.folder stdin

/-- Whether the job needs the standard input. -/
def readsStdin (job : Job) : Bool :=
  job.command.readsQuery &&
    match job.source with
    | .ok .stdin => true
    | _ => false

def run (libs : Libraries) (job : Job) (stdin : Input) (host : Host) (durationMs : Nat) : Outcome :=
  let text := job.text stdin
  conclude libs job.view job.command text durationMs job.journal (job.command.finding host text)

end Job

/-- All that a run depends on. -/
structure Call where
  args : List String
  environment : Environment := []
  folder : Folder := {}
  stdin : Input := .bytes []
  host : Host := {}
  durationMs : Nat := 0

def Call.plan (call : Call) : Plan :=
  Command.plan call.args call.environment call.folder

/-- The whole program. -/
def run (libs : Libraries) (call : Call) : Outcome :=
  match call.plan with
  | .over o => o
  | .start job => job.run libs call.stdin call.host call.durationMs

end Command
end Criteria
