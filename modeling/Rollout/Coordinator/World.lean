import Rollout.Coordinator.Basic
import Rollout.Workflow.Engine

/-!
# A world for the coordinator

A world is a record store, a workflow engine and the set of busy targets.  `World.collaborators` are
the calls of a coordinator on it: none of them takes time or fails but for a reason of the store or
the engine.
-/

namespace Rollout

/-- A store, an engine and the targets that are being updated. -/
structure World (σ : Type) where
  store : σ
  engine : Engine := {}
  busy : List String := []
deriving DecidableEq

namespace World

variable {σ : Type}

/-- Mark a target as busy or not. -/
def setBusy (w : World σ) (target : String) (busy : Bool) : World σ :=
  if busy then { w with busy := target :: w.busy }
  else { w with busy := w.busy.filter (· != target) }

/-- Whether a target is busy. -/
def isBusy (w : World σ) (target : String) : Bool := w.busy.contains target

/-! ## Calls -/

/-- The rows of an object and a target. -/
def ofObject [RecordStore σ] (object deployment : String) (w : World σ) :
    Except StoreError (List Record) × World σ :=
  (RecordStore.ofObject w.store object deployment, w)

/-- The rows of a target. -/
def ofDeployment [RecordStore σ] (deployment : String) (w : World σ) :
    Except StoreError (List Record) × World σ :=
  (RecordStore.ofDeployment w.store deployment, w)

/-- The newest rows of a target. -/
def latest [RecordStore σ] (deployment : String) (limit : Nat) (w : World σ) :
    Except StoreError (List Record) × World σ :=
  (RecordStore.latest w.store deployment limit, w)

/-- Change the row at a key. -/
def update [RecordStore σ] (key : RecordKey) (change : Record.Change) (w : World σ) :
    Except StoreError Unit × World σ :=
  match RecordStore.update key change w.store with
  | .ok store => (.ok (), { w with store := store })
  | .error e => (.error e, w)

/-- The running executions of a workflow. -/
def runningOf (workflow : String) (w : World σ) : Except ControlError (List String) × World σ :=
  (.ok (w.engine.runningOf workflow), w)

/-- Stop an execution. -/
def stop (execution cause : String) (w : World σ) : Except ControlError Unit × World σ :=
  match w.engine.stop execution cause with
  | .ok engine => (.ok (), { w with engine := engine })
  | .error e => (.error e, w)

/-- Whether a target is busy, as the probe answers. -/
def probe (target : String) (w : World σ) : Except ControlError Bool × World σ :=
  (.ok (w.isBusy target), w)

/-- The calls of a coordinator on a world. -/
def collaborators [RecordStore σ] : Collaborators (World σ) where
  ofObject object deployment := .prompt (World.ofObject object deployment)
  ofDeployment deployment := .prompt (World.ofDeployment deployment)
  latest deployment limit := .prompt (World.latest deployment limit)
  update key change := .prompt (World.update key change)
  runningOf workflow := .prompt (World.runningOf workflow)
  stop execution cause := World.stop execution cause
  isBusy target := .prompt (World.probe target)
  pause _ w := ((), w)

end World

end Rollout
