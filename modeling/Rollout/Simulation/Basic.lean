import Rollout.Coordinator.World
import Rollout.Simulation.Fault

/-!
# Simulations

A simulation is a world with a clock, a log of the calls that a coordinator made and, for each kind
of call, a queue of faults that the next attempts of that kind meet.  With empty queues it behaves as
its world does.
-/

namespace Rollout

/-- One attempt of a call, as the log shows it. -/
inductive LoggedCall where
  | ofObject (object deployment : String)
  | ofDeployment (deployment : String)
  | latest (deployment : String) (limit : Nat)
  | update (key : RecordKey)
  | runningOf (workflow : String)
  | stop (execution cause : String)
  | isBusy (target : String)
deriving Repr, DecidableEq

/-- The faults ahead, by kind of call. -/
structure Faults where
  ofObject : List (Fault StoreError) := []
  ofDeployment : List (Fault StoreError) := []
  latest : List (Fault StoreError) := []
  update : List (Fault StoreError) := []
  runningOf : List (Fault ControlError) := []
  stop : List (Fault ControlError) := []
  isBusy : List (Fault ControlError) := []
deriving DecidableEq

/-- A world in virtual time whose calls meet faults. -/
structure Simulation (σ : Type) where
  world : World σ
  faults : Faults := {}
  clock : Nat := 0
  log : List LoggedCall := []
deriving DecidableEq

namespace Simulation

variable {σ : Type}

/-- The world that a failed attempt leaves. -/
def left {ε α : Type} (fault : Fault ε) (effect : World σ → Except ε α × World σ)
    (s : Simulation σ) : World σ :=
  if fault.landed then (effect s.world).2 else s.world

/-- Carry out an attempt: log it, leave the faults ahead, and let it meet its own. -/
def attempt {ε α : Type} (call : LoggedCall) (ahead : Faults) (fault : Fault ε)
    (effect : World σ → Except ε α × World σ) (s : Simulation σ) : Except ε α × Simulation σ :=
  let clock := s.clock + fault.delay
  match fault.error with
  | none => ((effect s.world).1, ⟨(effect s.world).2, ahead, clock, s.log ++ [call]⟩)
  | some e => (.error e, ⟨s.left fault effect, ahead, clock, s.log ++ [call]⟩)

/-- Carry out an attempt unless it overruns a limit, which ends it like a failure. -/
def attemptWithin {ε α : Type} (limit : Nanos) (call : LoggedCall) (ahead : Faults)
    (fault : Fault ε) (effect : World σ → Except ε α × World σ) (s : Simulation σ) :
    Option (Except ε α) × Simulation σ :=
  if fault.overruns limit then
    (none, ⟨s.left fault effect, ahead, s.clock + millisOf limit, s.log ++ [call]⟩)
  else (some (s.attempt call ahead fault effect).1, (s.attempt call ahead fault effect).2)

/-- A missing row is the row of the call. -/
def nameRow (key : RecordKey) : StoreError → StoreError
  | .recordNotFound _ => .recordNotFound key
  | e => e

/-- The calls of a coordinator on a simulation. -/
def collaborators [RecordStore σ] : Collaborators (Simulation σ) where
  ofObject object deployment limit s :=
    s.attemptWithin limit (.ofObject object deployment)
      { s.faults with ofObject := s.faults.ofObject.tail } (s.faults.ofObject.headD {})
      (World.ofObject object deployment)
  ofDeployment deployment limit s :=
    s.attemptWithin limit (.ofDeployment deployment)
      { s.faults with ofDeployment := s.faults.ofDeployment.tail } (s.faults.ofDeployment.headD {})
      (World.ofDeployment deployment)
  latest deployment count limit s :=
    s.attemptWithin limit (.latest deployment count)
      { s.faults with latest := s.faults.latest.tail } (s.faults.latest.headD {})
      (World.latest deployment count)
  update key change limit s :=
    let fault := s.faults.update.headD {}
    s.attemptWithin limit (.update key) { s.faults with update := s.faults.update.tail }
      { fault with error := fault.error.map (nameRow key) } (World.update key change)
  runningOf workflow limit s :=
    s.attemptWithin limit (.runningOf workflow)
      { s.faults with runningOf := s.faults.runningOf.tail } (s.faults.runningOf.headD {})
      (World.runningOf workflow)
  stop execution cause s :=
    s.attempt (.stop execution cause) { s.faults with stop := s.faults.stop.tail }
      (s.faults.stop.headD {}) (World.stop execution cause)
  isBusy target limit s :=
    s.attemptWithin limit (.isBusy target) { s.faults with isBusy := s.faults.isBusy.tail }
      (s.faults.isBusy.headD {}) (World.probe target)
  pause duration s := ((), { s with clock := s.clock + millisOf duration })

/-- The coordinator of a simulation. -/
def coordinator [RecordStore σ] (settings : CoordinatorSettings) : Coordinator (Simulation σ) :=
  ⟨collaborators, settings⟩

end Simulation

end Rollout
