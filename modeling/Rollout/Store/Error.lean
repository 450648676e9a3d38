import Rollout.Deployment.Record.Reading
import Rollout.Retry

/-!
# Failures of the record store
-/

namespace Rollout

/-- Why a call of the record store failed. -/
inductive StoreError where
  | backend (detail : String)
  | timeout
  | unreadable (fault : Record.Fault)
  | recordNotFound (key : RecordKey)
deriving DecidableEq

namespace StoreError

/-- The wording of a failure. -/
def message : StoreError → String
  | .backend detail => "Record store backend error: " ++ detail
  | .timeout => "Record store call timed out"
  | .unreadable fault => "Could not (de)serialize deployment record: " ++ fault.message
  | .recordNotFound key => "Deployment record " ++ key.text ++ " does not exist"

/-- Failures of the backend and timeouts may pass. -/
instance : Transient StoreError where
  isTransient
    | .backend _ => true
    | .timeout => true
    | _ => false
  timedOut := .timeout

end StoreError

end Rollout
