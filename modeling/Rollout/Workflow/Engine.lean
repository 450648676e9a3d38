import Rollout.SortedMap
import Rollout.Workflow.Error

/-!
# The workflow engine

The engine runs executions under workflows.  An execution can be started more than once and under
several workflows; a stop ends all of its runs at once.  Stops of some executions can be refused.
-/

namespace Rollout

/-- A stop that was granted. -/
structure Stop where
  execution : String
  cause : String
deriving Repr, DecidableEq

/-- The running executions of each workflow in the order of their starts, the stops granted so far
and the executions whose stops are refused. -/
structure Engine where
  running : SortedMap String (List String) := .empty
  stops : List Stop := []
  refused : List String := []
deriving DecidableEq

namespace Engine

/-- The running executions of a workflow. -/
def runningOf (e : Engine) (workflow : String) : List String :=
  (e.running.get? workflow).getD []

/-- Start an execution. -/
def start (e : Engine) (workflow execution : String) : Engine :=
  { e with running := e.running.insert workflow (e.runningOf workflow ++ [execution]) }

/-- Refuse all later stops of an execution. -/
def refuseStops (e : Engine) (execution : String) : Engine :=
  { e with refused := execution :: e.refused }

/-- Whether an execution runs under some workflow. -/
def isRunning (e : Engine) (execution : String) : Bool :=
  e.running.values.any fun executions => executions.contains execution

/-- Entries of running executions without one execution. -/
def dropExecution (execution : String) (m : SortedMap String (List String)) :
    SortedMap String (List String) :=
  ⟨m.entries.map fun entry => (entry.1, entry.2.filter (· != execution)), by
    have h := m.ascending
    unfold Entries.Ascending at h ⊢
    rw [List.pairwise_map]
    exact h⟩

/-- Stop an execution. -/
def stop (e : Engine) (execution cause : String) : Except ControlError Engine :=
  if e.refused.contains execution then
    .error (.rejected ("Execution " ++ execution ++ " can not be stopped"))
  else if e.isRunning execution then
    .ok { e with
      running := dropExecution execution e.running
      stops := e.stops ++ [⟨execution, cause⟩] }
  else
    .error (.rejected ("Execution does not exist or is not running: " ++ execution))

end Engine

end Rollout
