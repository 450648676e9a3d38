import Rollout.CommandLine.Run
import Rollout.Json.Reading
import Rollout.Store.File

/-!
# The program

Commands on the file system of the machine.  The environment can name the configuration file and the
data directory that are used when the command line names none.
-/

namespace Rollout

/-- The fault behind a failed operation. -/
def FileFault.ofError : IO.Error → FileFault
  | .noFileOrDirectory .. => .notFound
  | .alreadyExists .. => .alreadyExists
  | .inappropriateType file? code detail =>
    if code = 20 || code = -20 then .notADirectory
    else if code = 21 || code = -21 then .isADirectory
    else .other (toString (IO.Error.inappropriateType file? code detail))
  | e => .other (toString e)

/-- An operation whose failure is a fault. -/
def Machine.attempt {α : Type} (operation : IO α) : IO (Except FileFault α) := do
  try return .ok (← operation)
  catch e => return .error (.ofError e)

/-- Make a directory; the working directory, named by the empty path, is there. -/
def Machine.makeDirectories (path : String) : IO (Except FileFault Unit) :=
  if path.isEmpty then return .ok () else Machine.attempt (IO.FS.createDirAll path)

/-- The record store in the text of a file. -/
def Machine.storeOfText (text : String) : Except StoreError ByteStore :=
  if text.isEmpty then .ok RecordStore.empty
  else
    match (Json.ofText text).toOption.bind ByteStore.ofJson? with
    | some store => .ok store
    | none => .error (.backend "I/O error: invalid data")

/-- Open the record store in a file. -/
def Machine.openStore (path : String) : IO (Except StoreError ByteStore) := do
  match ← Machine.makeDirectories (parentPath path) with
  | .error fault =>
    return .error (.backend ("Failed to create record store directory: " ++ fault.message))
  | .ok () =>
    match ← Machine.attempt (IO.FS.readFile path) with
    | .ok text => return Machine.storeOfText text
    | .error .notFound => return .ok RecordStore.empty
    | .error fault => return .error (.backend ("I/O error: " ++ fault.message))

instance : Disk IO where
  makeDirectories := Machine.makeDirectories
  readText path := Machine.attempt (IO.FS.readFile path)
  writeText path text := Machine.attempt (IO.FS.writeFile path text)
  openStore := Machine.openStore
  saveStore path store := IO.FS.writeFile path store.document.compact

end Rollout

open Rollout

/-- Carry out the command line. -/
def main (words : List String) : IO UInt32 := do
  let standard : Invocation.Defaults := {}
  let settingsPath := (← IO.getEnv "DEPLOYPLAN_CONFIG").getD standard.settingsPath
  let dataDirectory := (← IO.getEnv "DEPLOYPLAN_DATA_DIR").getD standard.dataDirectory
  let report ← runWords words { settingsPath, dataDirectory }
  IO.print report.output
  if !report.errors.isEmpty then IO.eprintln report.errors
  return report.code
