import Rollout.Coordinator.Error
import Rollout.Coordinator.Phase
import Rollout.Store.Basic

/-!
# The coordinator

The coordinator lets at most one execution at a time deploy a target.  It talks to a record store, a
workflow engine and a probe that tells whether a target is being updated, and holds no state of its
own: every definition is a program over the state `σ` of its collaborators.  All calls are retried
except stops, whose failures are passed over.

`handle` carries out a trigger: it finds the deploy attempt, stops the running executions of recent
attempts of the target (*admission*), records the execution on all rows of the artifact and target
(*registration*), and stops the execution itself when the target is busy.
-/

namespace Rollout

/-- What the coordinator drives. -/
structure Collaborators (σ : Type) where
  ofObject : (object deployment : String) → Call σ StoreError (List Record)
  ofDeployment : (deployment : String) → Call σ StoreError (List Record)
  latest : (deployment : String) → (limit : Nat) → Call σ StoreError (List Record)
  update : RecordKey → Record.Change → Call σ StoreError Unit
  runningOf : (workflow : String) → Call σ ControlError (List String)
  /-- Stops are not retried and have no limit. -/
  stop : (execution cause : String) → StateM σ (Except ControlError Unit)
  isBusy : (target : String) → Call σ ControlError Bool
  /-- Let time pass. -/
  pause : Nanos → StateM σ Unit

/-- Settings of the coordinator. -/
structure CoordinatorSettings where
  /-- How many of the newest attempts of a target admission looks at. -/
  window : Nat := 5
  retry : RetryPolicy := {}
deriving DecidableEq

/-- A coordinator. -/
structure Coordinator (σ : Type) where
  collaborators : Collaborators σ
  settings : CoordinatorSettings := {}

/-- A program of the coordinator. -/
abbrev Coordinating (σ α : Type) := ExceptT CoordinatorError (StateM σ) α

namespace Coordinator

variable {σ : Type}

/-- The cause given to executions that a newer one supersedes. -/
def supersededCause : String := "Stopped due to new execution started"

/-- The cause given to an execution whose target is being updated. -/
def targetBusyCause : String := "Stopped due to new stack update in progress"

/-! ## Calls -/

/-- A call of the store, retried. -/
def askStore {α : Type} (c : Coordinator σ) (call : Call σ StoreError α) : Coordinating σ α :=
  ExceptT.mk do
    return (← retry c.settings.retry c.collaborators.pause call).mapError .store

/-- A call of the engine or the probe, retried. -/
def askControl {α : Type} (c : Coordinator σ) (call : Call σ ControlError α) : Coordinating σ α :=
  ExceptT.mk do
    return (← retry c.settings.retry c.collaborators.pause call).mapError .control

/-- One stop request; tells whether it was granted. -/
def requestStop (c : Coordinator σ) (execution cause : String) : Coordinating σ Bool := do
  match ← (c.collaborators.stop execution cause : StateM σ _) with
  | .ok () => return true
  | .error _ => return false

/-! ## Records -/

/-- The deploy attempt of an object and a target: the first row that is no template. -/
def lookup (c : Coordinator σ) (object deployment : String) : Coordinating σ Record := do
  let records ← c.askStore (c.collaborators.ofObject object deployment)
  match records.find? fun r => !r.isTemplate with
  | some r => return r
  | none => throw (.notFound object deployment)

/-- Make a change to the rows at the keys, one after the other. -/
def updateAll (c : Coordinator σ) (change : Record.Change) : List RecordKey → Coordinating σ Unit
  | [] => return ()
  | key :: rest => do
    c.askStore (c.collaborators.update key change)
    updateAll c change rest

/-- Make a change to every row of an object and a target; tells how many there are. -/
def changeRows (c : Coordinator σ) (object deployment : String) (change : Record.Change) :
    Coordinating σ Nat := do
  let records ← c.askStore (c.collaborators.ofObject object deployment)
  c.updateAll change (records.map Record.key)
  return records.length

/-- Record an execution under its attempt key on every row of an object and a target. -/
def register (c : Coordinator σ) (execution object deployment : String) : Coordinating σ Nat :=
  c.changeRows object deployment (.setExecution (attemptKey execution) execution)

/-- Record an error on every row of an object and a target. -/
def recordError (c : Coordinator σ) (deployment object message code : String) :
    Coordinating σ Nat :=
  c.changeRows object deployment (.setError message code)

/-- Record the status of the plan on every row of an object and a target. -/
def recordPlanStatus (c : Coordinator σ) (deployment object status : String) :
    Coordinating σ Nat :=
  c.changeRows object deployment (.setPlanStatus status)

/-- The first row of a target that an execution is recorded on. -/
def findByExecution (c : Coordinator σ) (execution deployment : String) :
    Coordinating σ Record := do
  let records ← c.askStore (c.collaborators.ofDeployment deployment)
  match records.find? fun r => r.recordsExecution execution with
  | some r => return r
  | none => throw (.noRecordForExecution execution deployment)

/-! ## Triggers -/

/-- Request the stop of executions in order; gives those that were stopped. -/
def stopAll (c : Coordinator σ) : List String → Coordinating σ (List String)
  | [] => return []
  | execution :: rest => do
    let granted ← c.requestStop execution supersededCause
    let stopped ← stopAll c rest
    return if granted then execution :: stopped else stopped

/-- Stop the other running executions of a workflow that recent attempts of the target record. -/
def admission (c : Coordinator σ) (current workflow deployment : String) :
    Coordinating σ (List String) := do
  let running ← c.askControl (c.collaborators.runningOf workflow)
  let others := running.filter (· != current)
  if others.isEmpty then return []
  let latest ← c.askStore (c.collaborators.latest deployment c.settings.window)
  let recorded := latest.flatMap fun r => r.executions.values
  c.stopAll (others.filter recorded.contains)

/-- Stop an execution when its target is busy. -/
def abortIfBusy (c : Coordinator σ) (target current : String) : Coordinating σ Phase := do
  if ← c.askControl (c.collaborators.isBusy target) then
    let _ ← c.requestStop current targetBusyCause
    return .selfAborted
  else return .proceeding

/-- Carry out a trigger. -/
def handle (c : Coordinator σ) (t : Trigger) : Coordinating σ Outcome := do
  let record ← c.lookup t.object t.deployment
  let superseded ← c.admission t.execution t.workflow t.deployment
  let _ ← c.register t.execution t.object t.deployment
  let phase ← c.abortIfBusy record.stack t.execution
  return {
    record := record.key
    superseded := superseded
    phase := phase
    history := [.received, .admissionChecked, .registeredAndContinuing, .targetBusyChecked, phase] }

end Coordinator

end Rollout
