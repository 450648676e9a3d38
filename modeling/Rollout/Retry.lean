import Rollout.Decimal.Rounding

/-!
# Retrying transient failures

A call may fail for a passing reason.  `retry` repeats it until it succeeds, fails for good or has
used up its retries, and pauses between the attempts.  An attempt runs under a time limit and counts
as a timeout, which is transient, when it overruns.

The pause before the retry number `n + 1` is the initial backoff multiplied `n` times, never more
than the greatest backoff.  It is computed in doubles: seconds, times the multiplier raised by
repeated squaring, rounded to nanoseconds with ties to even.  Where that gives no duration (not a
number, negative, or beyond `2 ^ 64` seconds), the greatest backoff stands in.
-/

namespace Rollout

/-- Nanoseconds. -/
abbrev Nanos := Nat

/-- The duration of a number of milliseconds. -/
def Nanos.ofMillis (millis : Nat) : Nanos := 1000000 * millis

/-- How often a call is retried, with what pauses, and how long an attempt may take. -/
structure RetryPolicy where
  /-- Retries after the first attempt. -/
  maxRetries : UInt32 := 3
  initialBackoff : Nanos := Nanos.ofMillis 100
  maxBackoff : Nanos := Nanos.ofMillis 10000
  multiplier : Float := 2.0
  attemptTimeout : Nanos := Nanos.ofMillis 30000
deriving DecidableEq

namespace RetryPolicy

/-- One attempt and no retry. -/
def singleAttempt : RetryPolicy := { maxRetries := 0 }

/-! ## Backoff -/

/-- A power by repeated squaring, times the factor gathered so far; `fuel` bounds the bits of the
exponent. -/
def powerFrom : Nat → Float → Float → Nat → Float
  | 0, gathered, _, _ => gathered
  | fuel + 1, gathered, base, exponent =>
    let gathered := if exponent % 2 = 1 then gathered * base else gathered
    if exponent / 2 = 0 then gathered else powerFrom fuel gathered (base * base) (exponent / 2)

/-- A power with an exponent of at most 31 bits. -/
def power (base : Float) (exponent : Nat) : Float := powerFrom 32 1.0 base exponent

/-- A duration in seconds. -/
def seconds (duration : Nanos) : Float :=
  Float.ofNat (duration / 1000000000) + Float.ofNat (duration % 1000000000) / 1000000000.0

/-- The duration of a number of seconds, if there is one below `2 ^ 64` seconds. -/
def duration? (seconds : Float) : Option Nanos :=
  if 0.0 ≤ seconds ∧ seconds < 18446744073709551616.0 then some (roundScaled seconds 1000000000)
  else none

/-- The greatest exponent that is used. -/
def maxExponent : Nat := 2147483647

/-- The pause before the retry that follows the given number of retries. -/
def backoff (p : RetryPolicy) (retries : Nat) : Nanos :=
  match duration? (seconds p.initialBackoff * power p.multiplier (min retries maxExponent)) with
  | some d => min d p.maxBackoff
  | none => p.maxBackoff

/-- No pause is longer than the greatest backoff. -/
theorem backoff_le (p : RetryPolicy) (retries : Nat) : p.backoff retries ≤ p.maxBackoff := by
  unfold backoff
  split
  · exact Nat.min_le_right _ _
  · exact Nat.le_refl _

end RetryPolicy

/-! ## Retrying -/

/-- Failures that may pass, among them the overrun of a time limit. -/
class Transient (ε : Type) where
  isTransient : ε → Bool
  timedOut : ε

/-- A call under a time limit for one attempt; there is no result if the attempt overruns it. -/
abbrev Call (σ ε α : Type) := (limit : Nanos) → StateM σ (Option (Except ε α))

/-- A call that takes no time. -/
def Call.prompt {σ ε α : Type} (answer : StateM σ (Except ε α)) : Call σ ε α := fun _ s =>
  (some (answer s).1, (answer s).2)

section

variable {σ ε α : Type} [Transient ε]

/-- One attempt under the limit of a policy; an overrun counts as a timeout. -/
def RetryPolicy.attempt (p : RetryPolicy) (call : Call σ ε α) : StateM σ (Except ε α) := do
  match ← call p.attemptTimeout with
  | some result => return result
  | none => return .error Transient.timedOut

/-- What is below a number of 32 bits can go up. -/
theorem toNat_add_one_lt {n limit : UInt32} (h : n < limit) : n.toNat + 1 < UInt32.size :=
  Nat.lt_of_le_of_lt (Nat.succ_le_of_lt (UInt32.lt_iff_toNat_lt.mp h)) limit.toNat_lt

theorem toNat_add_one {n limit : UInt32} (h : n < limit) : (n + 1).toNat = n.toNat + 1 := by
  rw [UInt32.toNat_add]
  exact Nat.mod_eq_of_lt (toNat_add_one_lt h)

/-- Repeat a call while it fails transiently and fewer retries were made than the policy allows.
They are counted in 32 bits, and there is no answer if the counter overflows. -/
def retryCounting (p : RetryPolicy) (pause : Nanos → StateM σ Unit) (call : Call σ ε α)
    (attempts : UInt32) : StateM σ (Option (Except ε α)) := do
  match ← p.attempt call with
  | .ok value => return some (.ok value)
  | .error e =>
    if _h : attempts < p.maxRetries ∧ Transient.isTransient e = true then
      pause (p.backoff attempts.toNat)
      if attempts.toNat + 1 < UInt32.size then retryCounting p pause call (attempts + 1)
      else return none
    else return some (.error e)
termination_by p.maxRetries.toNat - attempts.toNat
decreasing_by
  have hlt : attempts.toNat < p.maxRetries.toNat := _h.1
  rw [toNat_add_one _h.1]
  omega

/-- The counter is compared before it goes up, so it does not overflow. -/
theorem isSome_retryCounting (p : RetryPolicy) (pause : Nanos → StateM σ Unit)
    (call : Call σ ε α) (attempts : UInt32) (s : σ) :
    (retryCounting p pause call attempts s).1.isSome := by
  induction attempts using retryCounting.induct (ε := ε) p generalizing s with
  | case1 attempts ih =>
    rw [retryCounting]
    simp only [bind, StateT.bind]
    rcases p.attempt call s with ⟨e | value, s'⟩
    · dsimp only
      split
      next h =>
        have hfits := toNat_add_one_lt h.1
        simp only [StateT.bind, hfits, if_true]
        exact ih e h _
      next => rfl
    · rfl

/-- Call until success, a failure for good, or the end of the retries. -/
def retry (p : RetryPolicy) (pause : Nanos → StateM σ Unit) (call : Call σ ε α) :
    StateM σ (Except ε α) := fun s =>
  let counted := retryCounting p pause call 0 s
  (counted.1.get (isSome_retryCounting p pause call 0 s), counted.2)

end

end Rollout
