import Rollout.Sha256
import Rollout.Text.Segments

/-!
# Names and identities of deployments

A deployment target is named for its environment and distribution, an artifact for the digest of
its bytes, and a logical attempt for the execution that carries it out.  Execution ids have segments
between colons.  What stands behind the last colon is unique to the invocation and dropped, and what
is left of the segments ends in the key of the attempt.
-/

namespace Rollout

/-- The name of the target that a distribution has in an environment. -/
def deploymentName (environment distribution : String) : String :=
  environment ++ "-" ++ distribution

/-- The identity of an artifact. -/
def artifactIdentity (data : ByteArray) : String := Sha256.hexDigest data

/-- The key of the attempt that an execution belongs to: what stands behind the last colon of its id
without the last segment.  An id without a colon is its own key. -/
def attemptKey (execution : String) : String :=
  match splitLast? ':' execution with
  | none => execution
  | some (attempt, _) =>
    match splitLast? ':' attempt with
    | some (_, key) => key
    | none => attempt

example : attemptKey "a:b:c" = "b" := by decide
example : attemptKey "plain" = "plain" := by decide

end Rollout
