import Criteria.Command.Folder
import Criteria.Failure
import Criteria.Text.Utf8

/-!
# Criteria.Command.Source

Where a command gets its query from: an argument, a file or the standard input. Files and the
standard input are UTF-8, and line ends are folded.
-/

namespace Criteria
namespace Command

/-- The standard input: bytes, or a device that cannot be read. -/
inductive Input where
  | bytes (bs : List UInt8)
  | broken

/-- Where a query comes from. -/
inductive Source where
  | argument (text : String)
  | file (path : Path)
  | stdin
  deriving DecidableEq, Repr

namespace Source

/-- Arguments that stand for the standard input. -/
def isStdinMark (query : String) : Bool := query == "" || query == "-"

/-- A file goes before the standard input; a query and a file together are refused. -/
def choose (query : Option String) (file : Option Path) : Except Failure Source :=
  match file, query with
  | none, none => .ok .stdin
  | none, some q => if isStdinMark q then .ok .stdin else .ok (.argument q)
  | some path, none => .ok (.file path)
  | some path, some q =>
    if isStdinMark q then .ok (.file path)
    else .error (.command
      { message := "Pass the query either as an argument or with --file, not both." })

/-- Bytes as text. -/
def textOf (bytes : List UInt8) : Except Text.Utf8.DecodeError String :=
  match Text.Utf8.decode bytes with
  | .error e => .error e
  | .ok cs => .ok (String.ofList (Text.foldNewlines cs))

def readStdin : Input → Except Failure String
  | .broken =>
    .error (.command
      { message := "Failed to read standard input: [Errno 5] Input/output error"
        type := "io_error" })
  | .bytes bs =>
    match textOf bs with
    | .error e => .error (.internal "UnicodeDecodeError" e.message)
    | .ok s => .ok s

def fileFailure (path : Path) (reason : String) : Failure :=
  .command
    { message := "Failed to read query file: " ++ reason
      type := "io_error"
      details := some [("path", .string path.text)] }

def readFile (folder : Folder) (path : Path) : Except Failure String :=
  match folder.read path with
  | .error e => .error (fileFailure path (e.message path.text))
  | .ok bs =>
    match textOf bs with
    | .error e => .error (fileFailure path e.message)
    | .ok s => .ok s

def read (folder : Folder) (stdin : Input) : Source → Except Failure String
  | .argument text => .ok text
  | .file path => readFile folder path
  | .stdin => readStdin stdin

end Source
end Command
end Criteria
