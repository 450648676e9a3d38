import Rollout.CommandLine.Arguments
import Rollout.Coordinator.Phase

/-!
# Invocations

What a command line asks for: a command, the configuration file and the data directory.  The two
options of the latter stand before the name of the command.
-/

namespace Rollout

/-- A command. -/
inductive Command where
  /-- Compile a plan, and print the graph or write it to a file. -/
  | compile (plan : String) (output : Option String)
  /-- Store the record that a file holds. -/
  | registerOrigin (record : String)
  /-- Print the deploy attempt of an object and a target. -/
  | lookup (object deployment : String)
  /-- Record an execution. -/
  | register (execution object deployment : String)
  /-- Record an error. -/
  | recordError (deployment object message code : String)
  /-- Carry out a trigger among executions that already run, with targets that are busy. -/
  | trigger (trigger : Trigger) (running busy : List String)
deriving DecidableEq

/-- A command and where it finds its settings and data. -/
structure Invocation where
  settingsPath : String
  dataDirectory : String
  command : Command
deriving DecidableEq

namespace Command

/-- The names of the commands. -/
def names : List String :=
  ["compile", "register-origin", "lookup", "register", "record-error", "trigger"]

/-- Options with a text each. -/
def textOptions (names : List String) : List OptionSpec :=
  names.map fun name => { name := name }

/-- Read the words of a command that takes options with a text each and no operand. -/
def readTexts (names : List String) (words : List String) : Except Refusal Arguments :=
  Arguments.readAll (textOptions names) false [] words

/-- The options of `trigger`. -/
def triggerOptions : List OptionSpec :=
  textOptions ["execution", "workflow", "object", "deployment"] ++
    [{ name := "running", repeats := true }, { name := "busy", repeats := true }]

/-- The command that a name and further words write. -/
def ofWords (name : String) (words : List String) : Except Refusal Command := do
  match name with
  | "compile" =>
    let output : OptionSpec := { name := "output", letter := some 'o', isPath := true }
    let given ← Arguments.readAll [output] true [] words
    return .compile (← given.required "") (given.lookup "output")
  | "register-origin" =>
    let given ← Arguments.readAll [] true [] words
    return .registerOrigin (← given.required "")
  | "lookup" =>
    let given ← readTexts ["object", "deployment"] words
    return .lookup (← given.required "object") (← given.required "deployment")
  | "register" =>
    let given ← readTexts ["execution", "object", "deployment"] words
    return .register (← given.required "execution") (← given.required "object")
      (← given.required "deployment")
  | "record-error" =>
    let given ← readTexts ["deployment", "object", "message", "code"] words
    return .recordError (← given.required "deployment") (← given.required "object")
      (← given.required "message") (← given.required "code")
  | "trigger" =>
    let given ← Arguments.readAll triggerOptions false [] words
    let trigger : Trigger := {
      execution := ← given.required "execution"
      workflow := ← given.required "workflow"
      object := ← given.required "object"
      deployment := ← given.required "deployment" }
    return .trigger trigger (given.all "running") (given.all "busy")
  | "help" =>
    match words with
    | [] => throw .help
    | [topic] => throw (if topic = "help" || names.contains topic then .help else .usage)
    | _ => throw .usage
  | _ => throw .usage

end Command

namespace Invocation

/-- The options before the name of the command. -/
def options : List OptionSpec :=
  [{ name := "config", letter := some 'c', isPath := true },
    { name := "data-dir", letter := some 'd', isPath := true }]

/-- What stands for the options before the command where they are missing. -/
structure Defaults where
  settingsPath : String := "deployplan.toml"
  dataDirectory : String := "./data"

/-- How a command line is written. -/
def usage : String :=
  "\n".intercalate [
    "Usage: deployplan [-c FILE] [-d DIRECTORY] COMMAND",
    "",
    "Commands:",
    "  compile PLAN [-o FILE]",
    "  register-origin RECORD",
    "  lookup --object ID --deployment NAME",
    "  register --execution ID --object ID --deployment NAME",
    "  record-error --deployment NAME --object ID --message TEXT --code CODE",
    "  trigger --execution ID --workflow ID --object ID --deployment NAME",
    "          [--running ID]... [--busy TARGET]..."]

/-- The invocation that a command line writes. -/
def ofWords (words : List String) (defaults : Defaults := {}) : Except Refusal Invocation := do
  let (given, rest) ← Arguments.readOptions options [] words
  match rest with
  | [] => throw .usage
  | name :: rest =>
    return {
      settingsPath := (given.lookup "config").getD defaults.settingsPath
      dataDirectory := (given.lookup "data-dir").getD defaults.dataDirectory
      command := ← Command.ofWords name rest }

example : ofWords ["-dx", "lookup", "--object=o", "--deployment", "d"]
    = .ok ⟨"deployplan.toml", "x", .lookup "o" "d"⟩ := by decide +kernel
example : ofWords ["lookup", "--object", "o", "--deployment", "--x"] = .error .usage := by
  decide +kernel

end Invocation

end Rollout
