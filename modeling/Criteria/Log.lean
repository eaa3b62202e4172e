import Criteria.Query.Parser
import Criteria.Text.Screen

/-!
# Criteria.Log

The diary of a run: what is noted while a text is read, from which level on notes are kept, and
where they go.

* `Reading.records` and `tokenRecords` are the notes that reading a text leaves.
* `Journal` holds the logger's settings and all that was written through them.
-/

namespace Criteria
namespace Log

/-- From which weight on notes are kept; `unset` keeps none of those made here. -/
inductive Level where
  | unset
  | debug
  | info
  | warning
  deriving DecidableEq, Repr

def Level.number : Level → Nat
  | .unset => 0
  | .debug => 10
  | .info => 20
  | .warning => 30

/-- The more verbose, the lighter the notes that are kept. -/
def Level.ofVerbosity (verbosity : Int) : Level :=
  if 2 ≤ verbosity then .debug
  else if verbosity = 1 then .info
  else .warning

inductive Author where
  | lexer
  | parser
  | runner
  deriving DecidableEq, Repr

def Author.name : Author → String
  | .lexer => "rql.lexer"
  | .parser => "rql.parser"
  | .runner => "rql.cli.runner"

/-- A note, of the lightest weight. -/
structure Record where
  author : Author
  message : String
  /-- Where the failure came from that the note is about, if that is told. -/
  trace : String := ""
  deriving DecidableEq, Repr

namespace Record

/-- The message, and what is told of the failure on lines of its own. -/
def text (r : Record) : String :=
  if r.trace.isEmpty then r.message else r.message ++ "\n" ++ r.trace

def fileText (r : Record) : String :=
  "DEBUG " ++ r.author.name ++ ": " ++ r.text

/-- The weight in a column of its own, and the lines of the text below one another. -/
def screenText (r : Record) : String :=
  match Text.screenLines r.text with
  | [] => "DEBUG\n"
  | l :: ls =>
    String.join (("DEBUG    " ++ String.ofList l ++ "\n") ::
      ls.map fun l => "         " ++ String.ofList l ++ "\n")

end Record

/-- Each illegal character is noted when it is read. -/
def tokenRecords (ts : List Token) : List Record :=
  (ts.filter fun t => t.kind = .illegal).map fun t =>
    { author := .lexer
      message :=
        "Illegal character " ++ Text.quoted t.literal ++ " at position " ++ intText t.pos }

/-- The tokens past both that a window shows. -/
def unseen (w : Window) : List Token := w.tokens.drop 2

/-- The tokens that come into sight on the way from one window to a later one. -/
def newlySeen (w later : Window) : List Token :=
  (unseen w).take ((unseen w).length - (unseen later).length)

/-- The notes on the way from a window over the windows after each item to the last window. -/
def itemRecords (w : Window) : List Window → Window → List Record
  | [], last => tokenRecords (newlySeen w last)
  | item :: items, last =>
    tokenRecords (newlySeen w item) ++
      { author := .parser
        message := "cur " ++ item.current.text ++ ", peek " ++ item.peek.text } ::
        itemRecords item items last

end Log

/-- The notes that a reading leaves, from the moment its first two tokens are read. -/
def Reading.records {α : Type} (start : Window) (r : Reading α) : List Log.Record :=
  Log.tokenRecords (start.tokens.take 2) ++ Log.itemRecords start r.items r.window

namespace Log

inductive Handler where
  | screen
  | file (path : String)
  deriving DecidableEq, Repr

structure Logger where
  level : Level := .unset
  handlers : List Handler := []
  deriving DecidableEq, Repr

def Logger.keeps (l : Logger) : Bool := l.level = .debug

/-- The logger and what was written: on the screen, and to each file that was opened. -/
structure Journal where
  logger : Logger := {}
  screen : List Record := []
  files : List (String × List Record) := []

namespace Journal

/-- Opens a file, which stays as it is if it was opened before. -/
def openFile (j : Journal) (path : String) : Journal :=
  if (j.files.lookup path).isSome then j else { j with files := j.files ++ [(path, [])] }

/-- Notes go to the screen, and to a file if one is named. -/
def configure (j : Journal) (verbosity : Int) (file : Option String) : Journal :=
  match file with
  | none => { j with logger := ⟨.ofVerbosity verbosity, [.screen]⟩ }
  | some path =>
    { j.openFile path with logger := ⟨.ofVerbosity verbosity, [.screen, .file path]⟩ }

def restore (j : Journal) (earlier : Logger) : Journal :=
  { j with logger := earlier }

def deliver (r : Record) (j : Journal) : Handler → Journal
  | .screen => { j with screen := j.screen ++ [r] }
  | .file path =>
    { j with files := j.files.map fun f => if f.1 == path then (f.1, f.2 ++ [r]) else f }

def write (j : Journal) (r : Record) : Journal :=
  if j.logger.keeps then j.logger.handlers.foldl (deliver r) j else j

def writeAll (j : Journal) (rs : List Record) : Journal :=
  rs.foldl write j

def screenText (j : Journal) : String :=
  String.join (j.screen.map Record.screenText)

end Journal
end Log
end Criteria
