import Rollout.CommandLine.Disk
import Rollout.CommandLine.Invocation
import Rollout.Coordinator.World
import Rollout.Graph.Document
import Rollout.Plan.Reading
import Rollout.Settings.Reading
import Rollout.Text.Segments

/-!
# Running commands

`Invocation.run` makes the data directory, reads the settings and carries out the command.  A command
that fails has a failure with at most one cause and prints nothing else.

The record store is opened only when everything that does not need it has succeeded.  Workflow
control and busy targets exist for the length of one command.
-/

namespace Rollout

/-! ## Failures -/

/-- Why a command failed. -/
inductive CommandError where
  | dataDirectory (fault : FileFault)
  | settingsNotRead (fault : FileFault)
  | settingsInvalid
  | planNotRead (path : String) (fault : FileFault)
  | planInvalid (path : String) (error : PlanError)
  | planNotCompiled (path : String) (error : PlanError)
  | outputNotWritten (path : String) (fault : FileFault)
  | recordNotRead (path : String) (fault : FileFault)
  | recordInvalid (fault : Record.Fault)
  | storeNotOpened (error : StoreError)
  | recordNotStored (error : StoreError)
  | executionNotRegistered (error : CoordinatorError)
  | errorNotRecorded (error : CoordinatorError)
  /-- The coordinator refused, and nothing is to be added. -/
  | refused (error : CoordinatorError)

namespace CommandError

/-- What failed. -/
def message : CommandError → String
  | .dataDirectory _ => "Failed to create data directory"
  | .settingsNotRead _ => "Failed to read configuration file"
  | .settingsInvalid => "Failed to parse configuration file"
  | .planNotRead path _ => "Failed to read plan " ++ path
  | .planInvalid path _ => "Invalid deployment plan " ++ path
  | .planNotCompiled path _ => "Failed to compile " ++ path
  | .outputNotWritten path _ => "Failed to write " ++ path
  | .recordNotRead path _ => "Failed to read record " ++ path
  | .recordInvalid _ => "Failed to parse deployment record"
  | .storeNotOpened _ => "Failed to open record store"
  | .recordNotStored _ => "Failed to store deployment record"
  | .executionNotRegistered _ => "Failed to register execution"
  | .errorNotRecorded _ => "Failed to record error"
  | .refused error => error.message

/-- Why it failed, where more is known. -/
def cause : CommandError → Option String
  | .dataDirectory fault => some fault.message
  | .settingsNotRead fault => some fault.message
  | .settingsInvalid => none
  | .planNotRead _ fault => some fault.message
  | .planInvalid _ error => some error.message
  | .planNotCompiled _ error => some error.message
  | .outputNotWritten _ fault => some fault.message
  | .recordNotRead _ fault => some fault.message
  | .recordInvalid fault => some fault.message
  | .storeNotOpened error => some error.message
  | .recordNotStored error => some error.message
  | .executionNotRegistered error => some error.message
  | .errorNotRecorded error => some error.message
  | .refused _ => none

/-- A text with every line indented. -/
def indent (text : String) : String :=
  "\n".intercalate ((segments '\n' text).map ("    " ++ ·))

/-- The failure as it is reported: what failed and, indented below, why. -/
def report (e : CommandError) : String :=
  "Error: " ++ e.message ++
    match e.cause with
    | some cause => "\n\nCaused by:\n" ++ indent cause
    | none => ""

end CommandError

/-! ## Commands -/

/-- What a command prints on success. -/
abbrev Running (m : Type → Type) (α : Type) := ExceptT CommandError m α

variable {m : Type → Type} [Monad m] [Disk m]

/-- An operation whose failure is one of a command. -/
def require {ε α : Type} (wrap : ε → CommandError) (operation : m (Except ε α)) : Running m α :=
  ExceptT.mk do return (← operation).mapError wrap

/-- A value printed on lines of its own. -/
def printed (document : Json) : String := document.pretty ++ "\n"

namespace Settings

/-- The settings in a file; without the file, the defaults. -/
def load (path : String) : Running m Settings := do
  match ← (Disk.readText path : m _) with
  | .error .notFound => return {}
  | .error .notADirectory => return {}
  | .error fault => throw (.settingsNotRead fault)
  | .ok text =>
    match ofText? text with
    | some settings => return settings
    | none => throw .settingsInvalid

end Settings

namespace Command

/-- The name at the end of a path, if it has one. -/
def fileName? (path : String) : Option String :=
  match ((segments '/' path).filter fun name => name != "" && name != ".").getLast? with
  | some ".." => none
  | name? => name?

/-- Whether a file name ends in a point and the given text, with something before the point. -/
def hasExtension (extension : String) (path : String) : Bool :=
  match fileName? path with
  | none => false
  | some name =>
    match (segments '.' name).reverse with
    | last :: before :: more => last = extension && (before != "" || !more.isEmpty)
    | _ => false

/-- The plan in a text: JSON if the name of its file says so, else YAML. -/
def readPlan (path text : String) : Except PlanError Plan :=
  if hasExtension "json" path then Plan.ofJsonText text else Plan.ofYamlText text

/-- The graph that a plan file compiles to. -/
def compileFile (settings : Settings) (path : String) : Running m StateGraph := do
  let text ← require (.planNotRead path) (Disk.readText path)
  let plan ← ExceptT.mk (pure ((readPlan path text).mapError (.planInvalid path)))
  ExceptT.mk (pure ((plan.compile settings.mergeType).mapError (.planNotCompiled path)))

/-- Run a program of the coordinator on the record store in a file. -/
def coordinate {α : Type} (settings : Settings) (recordsPath : String)
    (surroundings : ByteStore → World ByteStore)
    (program : Coordinator (World ByteStore) → Coordinating (World ByteStore) α) :
    Running m (Except CoordinatorError α) := do
  let store ← require .storeNotOpened (Disk.openStore recordsPath)
  let c : Coordinator (World ByteStore) :=
    { collaborators := World.collaborators, settings := settings.coordinator }
  let (result, world) := (program c).run (surroundings store)
  (Disk.saveStore recordsPath world.store : m Unit)
  return result

/-- A store alone: no execution runs and no target is busy. -/
def alone (store : ByteStore) : World ByteStore := { store := store }

/-- A store, with executions that run under the workflow of a trigger and busy targets. -/
def among (t : Trigger) (running busy : List String) (store : ByteStore) : World ByteStore :=
  { store := store
    engine := (t.execution :: running).foldl (fun e execution => e.start t.workflow execution) {}
    busy := busy }

/-- Carry out a command; gives what is printed. -/
def run (settings : Settings) (recordsPath : String) : Command → Running m String
  | .compile path output => do
    let graph ← compileFile settings path
    match output with
    | none => return graph.pretty ++ "\n"
    | some output =>
      require (.outputNotWritten output) (Disk.writeText output graph.pretty)
      return ""
  | .registerOrigin path => do
    let text ← require (.recordNotRead path) (Disk.readText path)
    let record ← ExceptT.mk (pure ((Record.ofText text).mapError .recordInvalid))
    let store ← require .storeNotOpened (Disk.openStore recordsPath)
    let store ← ExceptT.mk (pure ((RecordStore.put record store).mapError .recordNotStored))
    (Disk.saveStore recordsPath store : m Unit)
    return ""
  | .lookup object deployment => do
    match ← coordinate settings recordsPath alone (·.lookup object deployment) with
    | .ok record => return printed record.document
    | .error e => throw (.refused e)
  | .register execution object deployment => do
    match ← coordinate settings recordsPath alone (·.register execution object deployment) with
    | .ok _ => return ""
    | .error e => throw (.executionNotRegistered e)
  | .recordError deployment object message code => do
    match ← coordinate settings recordsPath alone
        (·.recordError deployment object message code) with
    | .ok _ => return ""
    | .error e => throw (.errorNotRecorded e)
  | .trigger t running busy => do
    match ← coordinate settings recordsPath (among t running busy) (·.handle t) with
    | .ok outcome => return printed outcome.document
    | .error e => throw (.refused e)

end Command

namespace Invocation

/-- Carry out an invocation; gives what is printed. -/
def run (i : Invocation) : Running m String := do
  require .dataDirectory (Disk.makeDirectories i.dataDirectory)
  let settings ← Settings.load i.settingsPath
  i.command.run settings (settings.recordsPath i.dataDirectory)

end Invocation

/-! ## Reports -/

/-- What a command line leaves behind: its exit code and what it prints. -/
structure Report where
  code : UInt32
  output : String := ""
  errors : String := ""

/-- Carry out a command line. -/
def runWords (words : List String) (defaults : Invocation.Defaults := {}) : m Report := do
  match Invocation.ofWords words defaults with
  | .error .usage => return { code := 2, errors := Invocation.usage }
  | .error .help => return { code := 0, output := Invocation.usage ++ "\n" }
  | .ok i =>
    match ← i.run.run with
    | .ok output => return { code := 0, output := output }
    | .error e => return { code := 1, errors := e.report }

end Rollout
