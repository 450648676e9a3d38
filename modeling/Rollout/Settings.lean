import Rollout.Coordinator.Basic
import Rollout.Json.Printing
import Rollout.Plan.Compilation

/-!
# Settings

What a configuration file can set: the file of the record store, how calls are retried, the type of
merge states, and how far admission looks back.  Everything has a default.
-/

namespace Rollout

/-- The settings of the program. -/
structure Settings where
  /-- The file of the record store, in the data directory unless its path is absolute. -/
  recordsFile : String := "records.redb"
  mergeType : String := defaultMergeType
  coordinator : CoordinatorSettings := {}
deriving DecidableEq

namespace Settings

/-- A double as a JSON number; what is infinite or no number is null. -/
def doubleValue (x : Float) : Json := if x.isFinite then .number (.double x) else .null

/-- A duration in whole milliseconds. -/
def millis (duration : Nanos) : Json := .number (.ofUInt64 (duration / 1000000).toUInt64)

/-- The settings as a document, as their file would write them. -/
def document (s : Settings) : Json :=
  let retry := s.coordinator.retry
  .object [
    ("storage", .object [("records_file", .string s.recordsFile)]),
    ("retry", .object [
      ("max_retries", .number (.ofUInt64 retry.maxRetries.toUInt64)),
      ("initial_backoff_ms", millis retry.initialBackoff),
      ("max_backoff_ms", millis retry.maxBackoff),
      ("backoff_multiplier", doubleValue retry.multiplier),
      ("attempt_timeout_ms", millis retry.attemptTimeout)]),
    ("compiler", .object [("merge_type", .string s.mergeType)]),
    ("coordinator", .object [
      ("latest_attempts_window", .number (.ofUInt64 s.coordinator.window.toUInt64))])]

/-- The path of the record store within a data directory. -/
def recordsPath (s : Settings) (dataDirectory : String) : String :=
  if s.recordsFile.startsWith "/" then s.recordsFile
  else if dataDirectory.endsWith "/" then dataDirectory ++ s.recordsFile
  else dataDirectory ++ "/" ++ s.recordsFile

end Settings

end Rollout
