import Criteria.Command.Arguments
import Criteria.Command.Folder
import Criteria.Number.Written
import Criteria.Report.Render

/-!
# Criteria.Command.Options

What a command line asks for. Options before the command's name belong to the program, those after
it to the command; an option that is not given may come from the environment.

* `Options.read` is the program's part of a command line.
* `Task.read` is the command's part.
-/

namespace Criteria
namespace Command

/-- Environment variables; an empty one counts as missing. -/
abbrev Environment : Type := List (String × String)

def Environment.get? (env : Environment) (name : String) : Option String :=
  match env.lookup name with
  | some v => if v.isEmpty then none else some v
  | none => none

/-- Yes and no in the environment; blanks alone mean no. -/
def flagOfText? (s : String) : Option Bool :=
  match Text.trim s.toList with
  | [] => some false
  | cs => Text.truthWord? (String.ofList cs)

/-- A whole number from zero on. -/
def countOfText? (s : String) : Option Nat :=
  match wholeNumber? s with
  | some (.ofNat n) => some n
  | _ => none

/-- A flag: given, or set in the environment. -/
def flag {κ : Type} [DecidableEq κ] (a : Arguments κ) (key : κ) (env : Environment)
    (name : String) : Except UsageError Bool :=
  if a.has key then .ok true
  else
    match env.get? name with
    | none => .ok false
    | some v =>
      match flagOfText? v with
      | some b => .ok b
      | none => .error (.badValue name v)

/-- The text of an option: given last, or set in the environment. -/
def setting? {κ : Type} [DecidableEq κ] (a : Arguments κ) (key : κ) (env : Environment)
    (name : String) : Option String :=
  (a.last? key).or (env.get? name)

/-- A path must not be a directory, unless it is empty. -/
def path? (name : String) (folder : Folder) : Option String → Except UsageError (Option Path)
  | none => .ok none
  | some text =>
    let path := Path.ofText text
    if !text.isEmpty && folder.isDirectory path then .error (.isDirectory name text)
    else .ok (some path)

inductive TaskKey where
  | file
  | help
  deriving DecidableEq, Repr

def helpOption : OptionSpec TaskKey := { key := .help, names := ["-h", "--help"] }

def fileOption : OptionSpec TaskKey :=
  { key := .file, names := ["-f", "--file"], takesValue := true }

inductive CommandName where
  | parse
  | tokens
  | version
  deriving DecidableEq, Repr

namespace CommandName

def all : List CommandName := [.parse, .tokens, .version]

def word : CommandName → String
  | .parse => "parse"
  | .tokens => "tokens"
  | .version => "version"

def ofWord? (w : String) : Option CommandName :=
  all.find? fun c => c.word == w

def variableName : CommandName → String
  | .parse => "RQL_PARSE"
  | .tokens => "RQL_TOKENS"
  | .version => "RQL_VERSION"

def helpVariable (c : CommandName) : String := c.variableName ++ "_HELP"

def fileVariable (c : CommandName) : String := c.variableName ++ "_FILE_PATH"

def readsQuery : CommandName → Bool
  | .version => false
  | _ => true

def options (c : CommandName) : List (OptionSpec TaskKey) :=
  if c.readsQuery then [fileOption, helpOption] else [helpOption]

end CommandName

inductive Key where
  | output
  | json
  | quiet
  | verbose
  | logFile
  | version
  | help
  deriving DecidableEq, Repr

def programOptions : List (OptionSpec Key) :=
  [{ key := .output, names := ["--output"], takesValue := true },
    { key := .json, names := ["--json"] },
    { key := .quiet, names := ["-q", "--quiet"] },
    { key := .verbose, names := ["-v"] },
    { key := .logFile, names := ["--log-file"], takesValue := true },
    { key := .version, names := ["--version"] },
    { key := .help, names := ["-h", "--help"] }]

structure Options where
  view : ViewSettings := {}
  logFile : Option Path := none

inductive Request where
  | version
  | help
  | run (options : Options) (command : CommandName) (args : List String)

namespace Options

def output (a : Arguments Key) (env : Environment) : Except UsageError OutputFormat :=
  match setting? a .output env "RQL_OUTPUT" with
  | none => .ok .tree
  | some name =>
    match OutputFormat.ofName? name with
    | some f => .ok f
    | none => .error (.badValue "--output" name)

def verbosity (a : Arguments Key) (env : Environment) : Except UsageError Nat :=
  if a.has .verbose then .ok (a.count .verbose)
  else
    match env.get? "RQL_VERBOSE" with
    | none => .ok 0
    | some v =>
      match countOfText? v with
      | some n => .ok n
      | none => .error (.badValue "-v" v)

/-- All options but the ones that end the program at once. -/
def settle (a : Arguments Key) (env : Environment) (folder : Folder) :
    Except UsageError Options := do
  let format ← output a env
  let json ← flag a .json env "RQL_JSON_FLAG"
  let quiet ← flag a .quiet env "RQL_QUIET"
  let verbosity ← verbosity a env
  let logFile ← path? "--log-file" folder (setting? a .logFile env "RQL_LOG_FILE")
  return { view := { output := if json then .json else format, quiet, verbosity }, logFile }

/-- The first of version and help that is given. -/
def firstShown? (a : Arguments Key) : Option Request :=
  match a.given.find? fun g => g.key = .version || g.key = .help with
  | some g => if g.key = .version then some .version else some .help
  | none => none

/-- Whether a word that is no command still looks like an option, after `--`; then the words from it
on are read once more, and may ask for the version or the help. -/
def reread? (command : String) (args : List String) : Option Request :=
  if command.toList.head? == some '-' then
    match Arguments.read programOptions false (command :: args) with
    | .ok a => firstShown? a
    | .error _ => none
  else none

/-- The program's part of a command line. Without a command it is to show its help. -/
def read (args : List String) (env : Environment) (folder : Folder) :
    Except UsageError Request := do
  let a ← Arguments.read programOptions false args
  match firstShown? a with
  | some request => return request
  | none =>
    if ← flag a .version env "RQL_VERSION" then return .version
    else if ← flag a .help env "RQL_HELP" then return .help
    else
      let options ← settle a env folder
      match a.others with
      | [] => return .help
      | word :: args =>
        match CommandName.ofWord? word with
        | some c => return .run options c args
        | none =>
          match reread? word args with
          | some request => return request
          | none => throw (.noSuchCommand word)

end Options

/-- What a command is to do: show its help, or work on a query given as an argument or in a file. -/
inductive Task where
  | help
  | work (query : Option String) (file : Option Path)
  deriving DecidableEq, Repr

/-- The command's part of a command line. -/
def Task.read (c : CommandName) (args : List String) (env : Environment) (folder : Folder) :
    Except UsageError Task := do
  let a ← Arguments.read c.options true args
  if ← flag a .help env c.helpVariable then return .help
  else
    let file ←
      if c.readsQuery then path? "--file" folder (setting? a .file env c.fileVariable)
      else Except.ok none
    match a.others with
    | [] => return .work none file
    | [query] =>
      if c.readsQuery then return .work (some query) file else throw (.extraArgument query)
    | query :: extra :: _ => throw (.extraArgument (if c.readsQuery then extra else query))

/-- The environment variables that are looked at. -/
def variableNames : List String :=
  ["RQL_OUTPUT", "RQL_JSON_FLAG", "RQL_QUIET", "RQL_VERBOSE", "RQL_LOG_FILE", "RQL_VERSION",
      "RQL_HELP"] ++
    CommandName.all.flatMap fun c => [c.helpVariable, c.fileVariable]

/-- The file that the command's part of a command line names. -/
def taskFile? (args : List String) (env : Environment) : Option String :=
  match args with
  | [] => none
  | word :: args =>
    match CommandName.ofWord? word with
    | none => none
    | some c =>
      match Arguments.read c.options true args with
      | .error _ => none
      | .ok a => setting? a .file env c.fileVariable

/-- The files that a command line names, whether they are there or not. -/
def namedFiles (args : List String) (env : Environment) : List Path :=
  match Arguments.read programOptions false args with
  | .error _ => []
  | .ok a =>
    let texts := (setting? a .logFile env "RQL_LOG_FILE").toList ++ (taskFile? a.others env).toList
    texts.map Path.ofText

end Command
end Criteria
