import Criteria.Command.Run
import Std.Time

/-!
# Criteria.Main

The program on a real machine. It collects what `Command.run` depends on, runs it, and writes what
comes out of it. The standard input is read only if the command needs it.
-/

namespace Criteria
namespace Command

/-- What lies at a path on this machine, added to what is known. -/
def lookAt (folder : Folder) (path : Path) : IO Folder := do
  let place ← try some <$> IO.FS.realPath path.text catch _ => pure none
  match place with
  | none => return folder
  | some place =>
    if ← place.isDir then return { folder with directories := path :: folder.directories }
    else
      try
        let bytes ← IO.FS.readBinFile place
        return { folder with files := (path, bytes.toList) :: folder.files }
      catch _ => return folder

/-- The files that a command line names, and the directories that they are in. -/
def lookAround (args : List String) (env : Environment) : IO Folder := do
  let named := namedFiles args env
  let paths := named ++ named.map Path.direct
  (paths ++ paths.map Path.parent).eraseDups.foldlM lookAt {}

def getEnvironment : IO Environment :=
  variableNames.filterMapM fun name => do
    return (← IO.getEnv name).map fun value => (name, value)

/-- Reads a stream to its end. -/
partial def readAll (stream : IO.FS.Stream) (bytes : ByteArray) : IO ByteArray := do
  let more ← stream.read 65536
  if more.isEmpty then return bytes else readAll stream (bytes ++ more)

def getInput : IO Input := do
  try return .bytes (← readAll (← IO.getStdin) .empty).toList
  catch _ => return .broken

/-- Adds notes to a log file, each after the time. -/
def writeLog (path : String) (records : List Log.Record) : IO Unit := do
  let time := (← Std.Time.PlainDateTime.now).format "uuuu-MM-dd HH:mm:ss,SSS"
  IO.FS.withFile path .append fun file =>
    records.forM fun r => file.putStr (time ++ " " ++ r.fileText ++ "\n")

/-- Writes what a run came to and gives its exit code. -/
def finish (o : Outcome) : IO UInt32 := do
  o.logs.forM fun (path, records) => writeLog path records
  (← IO.getStderr).putStr o.streams.err
  (← IO.getStdout).putStr o.streams.out
  match o.escaped with
  | some (path, e) => (← IO.getStderr).putStr (e.message path.text ++ "\n")
  | none => pure ()
  return o.exitCode.toNat.toUInt32

end Command
end Criteria

open Criteria.Command

def main (args : List String) : IO UInt32 := do
  let started ← IO.monoMsNow
  let environment ← getEnvironment
  let folder ← lookAround args environment
  let call : Call := { args, environment, folder }
  let stdin ←
    match call.plan with
    | .start job => if job.readsStdin then getInput else pure (.bytes [])
    | .over _ => pure (.bytes [])
  finish (run .standard { call with stdin, durationMs := (← IO.monoMsNow) - started })
