import Rollout.Retry

/-!
# Faults and virtual time

A fault is what happens to one attempt of a call: it may be slow, it may fail, and a failing attempt
may have taken effect all the same.  Time is virtual and counted in milliseconds; a pause ends on a
whole one.
-/

namespace Rollout

/-- What happens to one attempt. -/
structure Fault (ε : Type) where
  /-- How long the attempt takes before anything else happens, in milliseconds. -/
  delay : Nat := 0
  /-- The failure that ends the attempt, if it fails. -/
  error : Option ε := none
  /-- Whether a failing attempt takes effect. -/
  landed : Bool := false
deriving DecidableEq

/-- The whole milliseconds that a duration takes. -/
def millisOf (duration : Nanos) : Nat := (duration + 999999) / 1000000

/-- Whether an attempt takes longer than a limit allows. -/
def Fault.overruns {ε : Type} (f : Fault ε) (limit : Nanos) : Bool :=
  limit < Nanos.ofMillis f.delay

theorem Fault.overruns_default {ε : Type} (limit : Nanos) :
    ({} : Fault ε).overruns limit = false :=
  decide_eq_false (Nat.not_lt_zero limit)

/-! ## Rehearsals -/

/-- The course of retries against prepared faults. -/
structure Rehearsal (ε : Type) where
  faults : List (Fault ε)
  clock : Nat := 0
  /-- When the attempts started. -/
  starts : List Nat := []

namespace Rehearsal

variable {ε : Type} [Transient ε]

/-- One attempt, which gives its number when it succeeds. -/
def attempt : Call (Rehearsal ε) ε Nat := fun limit r =>
  let fault := r.faults.headD {}
  let starts := r.starts ++ [r.clock]
  if fault.overruns limit then (none, ⟨r.faults.tail, r.clock + millisOf limit, starts⟩)
  else
    let after : Rehearsal ε := ⟨r.faults.tail, r.clock + fault.delay, starts⟩
    match fault.error with
    | some e => (some (.error e), after)
    | none => (some (.ok r.starts.length), after)

/-- Let time pass. -/
def pause (duration : Nanos) : StateM (Rehearsal ε) Unit := fun r =>
  ((), { r with clock := r.clock + millisOf duration })

/-- Retry against prepared faults; attempts behind the last one succeed. -/
def run (p : RetryPolicy) (faults : List (Fault ε)) : Except ε Nat × Rehearsal ε :=
  retry p pause attempt { faults := faults }

end Rehearsal

end Rollout
