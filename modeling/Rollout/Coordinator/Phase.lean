import Rollout.Deployment.Record

/-!
# Phases of a trigger

A trigger passes through phases; the last one says whether its execution proceeds.
-/

namespace Rollout

/-- Where a triggered execution stands. -/
inductive Phase where
  | received
  | admissionChecked
  /-- The execution was stopped because a newer one was admitted. -/
  | superseded
  | registeredAndContinuing
  | targetBusyChecked
  | selfAborted
  | proceeding
deriving Repr, DecidableEq

namespace Phase

/-- All phases. -/
def all : List Phase :=
  [.received, .admissionChecked, .superseded, .registeredAndContinuing, .targetBusyChecked,
    .selfAborted, .proceeding]

/-- The text of a phase. -/
def text : Phase → String
  | .received => "received"
  | .admissionChecked => "admission_checked"
  | .superseded => "superseded"
  | .registeredAndContinuing => "registered_and_continuing"
  | .targetBusyChecked => "target_busy_checked"
  | .selfAborted => "self_aborted"
  | .proceeding => "proceeding"

/-- Whether nothing follows the phase. -/
def isTerminal : Phase → Bool
  | .superseded => true
  | .selfAborted => true
  | .proceeding => true
  | _ => false

/-- The phase as a document. -/
def document (p : Phase) : Json := .string p.text

end Phase

/-! ## Triggers and their outcomes -/

/-- The start of an execution that deploys an object to a target. -/
structure Trigger where
  execution : String
  workflow : String
  object : String
  deployment : String
deriving Repr, DecidableEq

/-- What became of a trigger. -/
structure Outcome where
  /-- The deploy attempt that the execution belongs to. -/
  record : RecordKey
  /-- The executions that were stopped for it. -/
  superseded : List String
  /-- The last phase. -/
  phase : Phase
  /-- All phases in order. -/
  history : List Phase
deriving Repr, DecidableEq

namespace Outcome

/-- Whether the execution goes on. -/
def proceeds (o : Outcome) : Bool := o.phase = .proceeding

/-- The outcome as a document. -/
def document (o : Outcome) : Json :=
  .object [
    ("record", .object [
      ("deployment_name", .string o.record.deployment),
      ("deploy_time", .number (.ofUInt64 o.record.time))]),
    ("superseded", .array (o.superseded.map .string)),
    ("phase", o.phase.document),
    ("history", .array (o.history.map Phase.document))]

end Outcome

end Rollout
