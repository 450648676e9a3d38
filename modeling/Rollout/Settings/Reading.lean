import Rollout.Settings
import Rollout.Toml.Reading

/-!
# Reading settings

`Settings.ofText?` reads a TOML text.  Each section and each key may be missing, and unknown ones are
passed over; a value of the wrong type or out of range has no reading.  A section may also be written
as an array of its values in order.
-/

namespace Rollout.Settings

open Toml (Value)

/-! ## Sections -/

/-- A section: values under their keys, or values in order. -/
inductive Section where
  | keyed (entries : Toml.Table)
  | listed (values : List Value)

/-- The section that a value writes.  A date has nothing of a section and is an empty one. -/
def Section.ofValue? : Value → Option Section
  | .table _ entries => some (.keyed entries)
  | .array items => some (.listed items)
  | .tables elements => some (.listed (elements.map (.table .header)))
  | .moment => some (.keyed [])
  | _ => none

/-- The section under a name, empty if there is none. -/
def Section.at? (name : String) (table : Toml.Table) : Option Section :=
  match table.lookup name with
  | some value => Section.ofValue? value
  | none => some (.keyed [])

/-- The value of a section at a key, or at its place in the order. -/
def Section.get? (place : Nat) (key : String) : Section → Option Value
  | .keyed entries => entries.lookup key
  | .listed values => values[place]?

/-- Read the value at a key; the default stands in for a missing one. -/
def Section.read {α : Type} (s : Section) (place : Nat) (key : String)
    (reading : Value → Option α) (default : α) : Option α :=
  match s.get? place key with
  | some value => reading value
  | none => some default

/-! ## Values -/

/-- A string. -/
def text? : Value → Option String
  | .string text => some text
  | _ => none

/-- A natural number up to a bound. -/
def natural? (bound : Nat) : Value → Option Nat
  | .integer n => if 0 ≤ n ∧ n ≤ bound then some n.toNat else none
  | _ => none

/-- A natural number of 64 bits. -/
def count? : Value → Option Nat := natural? (2 ^ 64 - 1)

/-- A duration written in milliseconds. -/
def duration? (v : Value) : Option Nanos := (count? v).map Nanos.ofMillis

/-- A double, which may be written as an integer. -/
def double? : Value → Option Float
  | .float x => some x
  | .integer n => some (if n < 0 then -Float.ofNat n.natAbs else Float.ofNat n.natAbs)
  | _ => none

/-! ## Settings -/

/-- The retry policy of its section. -/
def readRetry (s : Section) : Option RetryPolicy := do
  let default : RetryPolicy := {}
  return {
    maxRetries :=
      (← s.read 0 "max_retries" (natural? (2 ^ 32 - 1)) default.maxRetries.toNat).toUInt32
    initialBackoff := ← s.read 1 "initial_backoff_ms" duration? default.initialBackoff
    maxBackoff := ← s.read 2 "max_backoff_ms" duration? default.maxBackoff
    multiplier := ← s.read 3 "backoff_multiplier" double? default.multiplier
    attemptTimeout := ← s.read 4 "attempt_timeout_ms" duration? default.attemptTimeout }

/-- The settings that a table writes. -/
def ofTable? (table : Toml.Table) : Option Settings := do
  let default : Settings := {}
  let storage ← Section.at? "storage" table
  let retry ← Section.at? "retry" table
  let compiler ← Section.at? "compiler" table
  let coordinator ← Section.at? "coordinator" table
  return {
    recordsFile := ← storage.read 0 "records_file" text? default.recordsFile
    mergeType := ← compiler.read 0 "merge_type" text? default.mergeType
    coordinator := {
      window :=
        ← coordinator.read 0 "latest_attempts_window" count? default.coordinator.window
      retry := ← readRetry retry } }

/-- The settings that a text writes. -/
def ofText? (text : String) : Option Settings := do ofTable? (← Toml.Table.ofText? text)

example : ofText? "[compiler]\nmerge_type = 'Join' # joins\n" = some { mergeType := "Join" } := by
  decide +kernel
example : ofText? "[retry]\n[retry]" = none := by decide +kernel

end Rollout.Settings
