import Criteria.Text.Quoted

/-!
# Criteria.Command.Folder

The files within reach of a command: paths, what lies at a path, and why it cannot be opened.

* `Path.ofText` and `Path.text` read and write paths; the text is the shortest spelling.
* `Folder.read` and `Folder.openToAppend` are what commands do with files.
-/

namespace Criteria
namespace Command

inductive FileError where
  | notFound
  | notDirectory
  | isDirectory
  | nameTooLong
  deriving DecidableEq, Repr

def FileError.message (e : FileError) (path : String) : String :=
  (match e with
    | .notFound => "[Errno 2] No such file or directory: "
    | .notDirectory => "[Errno 20] Not a directory: "
    | .isDirectory => "[Errno 21] Is a directory: "
    | .nameTooLong => "[Errno 36] File name too long: ") ++ Text.quoted path

/-- A path: its root, which is empty for paths from the place where the program was started, and the
names on the way. -/
structure Path where
  root : String := ""
  names : List String
  deriving DecidableEq, Repr

namespace Path

/-- What stands before the names: nothing, or the root; two slashes are a root of their own. -/
def rootOf (text : String) : String :=
  match text.toList with
  | '/' :: '/' :: '/' :: _ => "/"
  | '/' :: '/' :: _ => "//"
  | '/' :: _ => "/"
  | _ => ""

/-- Empty names and `.` lead nowhere and are left out. -/
def ofText (text : String) : Path :=
  { root := rootOf text
    names := (text.splitOn "/").filter fun n => !n.isEmpty && n != "." }

def text (p : Path) : String :=
  let s := p.root ++ "/".intercalate p.names
  if s.isEmpty then "." else s

def child (p : Path) (name : String) : Path :=
  { p with names := p.names ++ [name] }

def parent (p : Path) : Path :=
  { p with names := p.names.dropLast }

/-- Whether a path leads through another and on. -/
def isBelow (p above : Path) : Bool :=
  p.root == above.root && above.names.length < p.names.length && above.names.isPrefixOf p.names

/-- One more name, where `..` takes the last one back if there is one to take back. -/
def step (p : Path) (name : String) : Path :=
  if name != ".." then p.child name
  else
    match p.names.getLast? with
    | none => if p.root.isEmpty then p.child ".." else p
    | some ".." => p.child ".."
    | some _ => p.parent

/-- The path without detours, told from its names alone. -/
def direct (p : Path) : Path :=
  p.names.foldl step { p with names := [] }

end Path

structure Folder where
  files : List (Path × List UInt8) := []
  directories : List Path := []

namespace Folder

inductive Entry where
  | file (bytes : List UInt8)
  | directory
  | none (e : FileError)

/-- Directories are the ones that are listed, those around a file or another directory, and the
places where paths start. -/
def isDirectoryAt (f : Folder) (p : Path) : Bool :=
  p.names.isEmpty || f.directories.contains p ||
    (f.directories ++ f.files.map Prod.fst).any fun q => q.isBelow p

/-- The longest name of a file or directory, in bytes. -/
def maxNameSize : Nat := 255

/-- The longest path, in bytes. -/
def maxPathSize : Nat := 4095

/-- Follows names from a directory. Nothing is known of the directories above the place where paths
start but that they are there. -/
def walk (f : Folder) (here : Path) : List String → Entry
  | [] => .directory
  | ".." :: names => walk f (here.step "..") names
  | name :: names =>
    let there := here.child name
    if maxNameSize < name.utf8ByteSize then .none .nameTooLong
    else
      match f.files.lookup there with
      | some bytes => if names.isEmpty then .file bytes else .none .notDirectory
      | none => if f.isDirectoryAt there then walk f there names else .none .notFound

def entry (f : Folder) (p : Path) : Entry :=
  if maxPathSize < p.text.utf8ByteSize then .none .nameTooLong
  else match f.files.lookup p with
  | some bytes => .file bytes
  | none =>
    if f.directories.contains p then .directory else f.walk { p with names := [] } p.names

def isDirectory (f : Folder) (p : Path) : Bool :=
  match f.entry p with
  | .directory => true
  | _ => false

def read (f : Folder) (p : Path) : Except FileError (List UInt8) :=
  match f.entry p with
  | .file bytes => .ok bytes
  | .directory => .error .isDirectory
  | .none e => .error e

/-- Opens a file to add to it, and makes it if only the file itself is missing. -/
def openToAppend (f : Folder) (p : Path) : Except FileError Folder :=
  match f.entry p with
  | .file _ => .ok f
  | .directory => .error .isDirectory
  | .none .notFound =>
    match f.entry p.parent with
    | .directory => .ok { f with files := f.files ++ [(p, [])] }
    | .file _ => .error .notDirectory
    | .none e => .error e
  | .none e => .error e

end Folder
end Command
end Criteria
