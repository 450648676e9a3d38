import Rollout.Store.Error
import Rollout.Workflow.Error

/-!
# Failures of the coordinator
-/

namespace Rollout

/-- Why the coordinator gave up. -/
inductive CoordinatorError where
  | notFound (object deployment : String)
  | noRecordForExecution (execution deployment : String)
  | store (cause : StoreError)
  | control (cause : ControlError)
deriving DecidableEq

namespace CoordinatorError

/-- The wording of a failure. -/
def message : CoordinatorError → String
  | .notFound object deployment =>
    "No deploy data found for objectIdentifier=" ++ object ++ ", deploymentName=" ++ deployment
  | .noRecordForExecution execution deployment =>
    "No deployment record of " ++ deployment ++ " references execution " ++ execution
  | .store cause => cause.message
  | .control cause => cause.message

/-- Whether the failure may pass. -/
def isTransient : CoordinatorError → Bool
  | .notFound .. => false
  | .noRecordForExecution .. => false
  | .store cause => Transient.isTransient cause
  | .control cause => Transient.isTransient cause

end CoordinatorError

end Rollout
