import Rollout.Retry

/-!
# Failures of the workflow engine and the target probe
-/

namespace Rollout

/-- Why a call of the workflow engine or the probe failed. -/
inductive ControlError where
  | unavailable (detail : String)
  | timeout
  | rejected (reason : String)
deriving Repr, DecidableEq

namespace ControlError

/-- The wording of a failure. -/
def message : ControlError → String
  | .unavailable detail => "Workflow control plane unavailable: " ++ detail
  | .timeout => "Workflow control call timed out"
  | .rejected reason => "Workflow control rejected the request: " ++ reason

/-- Unavailability and timeouts may pass. -/
instance : Transient ControlError where
  isTransient
    | .unavailable _ => true
    | .timeout => true
    | .rejected _ => false
  timedOut := .timeout

end ControlError

end Rollout
