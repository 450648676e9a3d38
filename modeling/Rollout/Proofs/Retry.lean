import Mathlib.Order.Bounds.Basic
import Rollout.Store.Error
import Rollout.Workflow.Error

/-!
# The budget of a retried call

What a retried call does is fixed by what each of its attempts would do, told here by a script of
`Trial`s.  The attempts are made in the order of the script and end with the first *final* outcome, a
value or a failure for good, or with the attempt that uses up the last retry.  Between two attempts
there is one pause, and none after the last.  `RetryLog` keeps the attempts and the pauses in the order
in which they happen, and `KeepsBudget` says what a retried call leaves in it.

The proofs go along `retryFrom`, where a number of retries made goes up next to one of retries left.
The loop that keeps one counter of 32 bits, and compares it with the greatest number of retries,
comes to the same answers, and has one always, because it compares before it counts
(`retryCounting_eq`).
-/

namespace Rollout

variable {σ ε α : Type}

/-! ## Steps of a retried call -/

/-- An outcome after which a call is not repeated. -/
def Final [Transient ε] : Except ε α → Prop
  | .ok _ => True
  | .error e => Transient.isTransient e = false

theorem exists_of_not_final [Transient ε] {r : Except ε α} (h : ¬Final r) :
    ∃ e, r = .error e ∧ Transient.isTransient e = true := by
  cases r with
  | ok value => exact absurd trivial h
  | error e => exact ⟨e, rfl, Bool.not_eq_false _ ▸ h⟩

section Steps

variable [Transient ε] {p : RetryPolicy} {pause : Nanos → StateM σ Unit} {call : Call σ ε α}

/-- An attempt has the result of its call if that keeps to the limit, and is a timeout otherwise. -/
theorem RetryPolicy.attempt_eq (p : RetryPolicy) (call : Call σ ε α) (s : σ) :
    p.attempt call s = ((call p.attemptTimeout s).1.getD (.error Transient.timedOut),
      (call p.attemptTimeout s).2) := by
  simp only [RetryPolicy.attempt, bind, StateT.bind]
  rcases call p.attemptTimeout s with ⟨_ | _, _⟩ <;> rfl

theorem RetryPolicy.attempt_of_some {r : Except ε α} {s s' : σ}
    (h : call p.attemptTimeout s = (some r, s')) : p.attempt call s = (r, s') := by
  rw [p.attempt_eq, h, Option.getD_some]

omit [Transient ε] in
theorem Call.run_prompt {answer : StateM σ (Except ε α)} {r : Except ε α} {s s' : σ}
    (h : answer s = (r, s')) (limit : Nanos) : Call.prompt answer limit s = (some r, s') := by
  rw [Call.prompt, h]

/-- Retry with the numbers of the retries made and left. -/
def retryFrom (p : RetryPolicy) (pause : Nanos → StateM σ Unit) (call : Call σ ε α) :
    (retries left : Nat) → StateM σ (Except ε α)
  | _, 0 => p.attempt call
  | retries, left + 1 => do
    match ← p.attempt call with
    | .ok value => return .ok value
    | .error e =>
      if Transient.isTransient e then
        pause (p.backoff retries)
        retryFrom p pause call (retries + 1) left
      else return .error e

/-- A final outcome ends the call. -/
theorem retryFrom_of_final {r : Except ε α} {s s' : σ} (hfinal : Final r)
    (h : p.attempt call s = (r, s')) (retries left : Nat) :
    retryFrom p pause call retries left s = (r, s') := by
  cases left with
  | zero => exact h
  | succ left =>
    simp only [retryFrom, bind, StateT.bind, h]
    cases r with
    | ok value => rfl
    | error e =>
      have hgood : Transient.isTransient e = false := hfinal
      simp only [hgood]
      rfl

/-- A passing failure is followed by a pause and the next attempt, while retries are left. -/
theorem retryFrom_of_passing {e : ε} {s s' : σ} (hpassing : Transient.isTransient e = true)
    (h : p.attempt call s = (.error e, s')) (retries left : Nat) :
    retryFrom p pause call retries (left + 1) s =
      retryFrom p pause call (retries + 1) left (pause (p.backoff retries) s').2 := by
  simp only [retryFrom, bind, StateT.bind, h, hpassing]
  rfl

/-! ## The counter -/

/-- The loop with a counter does what the retries left ask for, and its counter does not
overflow. -/
theorem retryCounting_eq (p : RetryPolicy) (pause : Nanos → StateM σ Unit) (call : Call σ ε α)
    (left : Nat) : ∀ attempts : UInt32, attempts.toNat + left = p.maxRetries.toNat →
      retryCounting p pause call attempts =
        some <$> retryFrom p pause call attempts.toNat left := by
  induction left with
  | zero =>
    intro attempts h
    have hlast : ¬attempts < p.maxRetries := fun hlt => (Nat.ne_of_lt hlt) h
    funext s
    rw [retryCounting]
    simp only [retryFrom, bind, StateT.bind, Functor.map, StateT.map, hlast]
    rcases p.attempt call s with ⟨value | e, s'⟩ <;> rfl
  | succ left ih =>
    intro attempts h
    have hlt : attempts < p.maxRetries := show attempts.toNat < p.maxRetries.toNat by omega
    have hfits := toNat_add_one_lt hlt
    have hnext := toNat_add_one hlt
    have ih := ih (attempts + 1) (by omega)
    rw [hnext] at ih
    funext s
    rw [retryCounting]
    simp only [retryFrom, bind, StateT.bind, Functor.map, StateT.map, hlt, hfits, ih]
    rcases p.attempt call s with ⟨e | value, s'⟩
    · cases he : Transient.isTransient e with
      | true =>
        simp only [he]
        rfl
      | false =>
        simp only [he]
        rfl
    · rfl

theorem retry_eq (p : RetryPolicy) (pause : Nanos → StateM σ Unit) (call : Call σ ε α) :
    retry p pause call = retryFrom p pause call 0 p.maxRetries.toNat := by
  funext s
  have hcounted := congrFun
    (retryCounting_eq p pause call p.maxRetries.toNat 0 (Nat.zero_add _)) s
  have hanswer := congrArg Prod.fst hcounted
  have hstate := congrArg Prod.snd hcounted
  exact Prod.ext (Option.some_inj.mp ((Option.some_get _).trans hanswer)) hstate

/-- A call with a final outcome is made once. -/
theorem retry_of_final {r : Except ε α} {s s' : σ} (hfinal : Final r)
    (h : p.attempt call s = (r, s')) : retry p pause call s = (r, s') := by
  rw [retry_eq]
  exact retryFrom_of_final hfinal h 0 p.maxRetries.toNat

end Steps

/-! ## Scripts -/

/-- What an attempt would do without a limit: how long it would take, if it would end at all, and what
it would give then. -/
structure Trial (ε α : Type) where
  duration : Option Nanos
  result : Except ε α

/-- The result of an attempt under a limit, which it may reach but not overrun. -/
def Trial.under (t : Trial ε α) (limit : Nanos) : Option (Except ε α) :=
  match t.duration with
  | some duration => if duration ≤ limit then some t.result else none
  | none => none

/-- What a retried call does by and by. -/
inductive RetryStep where
  | attempt (limit : Nanos)
  | pause (duration : Nanos)
deriving DecidableEq

/-- The steps of a retried call so far. -/
structure RetryLog where
  attempts : Nat := 0
  steps : List RetryStep := []
deriving DecidableEq

namespace RetryLog

/-- An attempt, which goes as the script says for its number. -/
def attempt (script : Nat → Trial ε α) : Call RetryLog ε α := fun limit c =>
  ((script c.attempts).under limit, ⟨c.attempts + 1, c.steps ++ [.attempt limit]⟩)

def pause (duration : Nanos) : StateM RetryLog Unit := fun c =>
  ((), { c with steps := c.steps ++ [.pause duration] })

end RetryLog

namespace RetryPolicy

/-- An attempt and a pause for each of some retries, and the last attempt. -/
def steps (p : RetryPolicy) (first retries : Nat) : List RetryStep :=
  ((List.range' first retries).flatMap fun i =>
    [.attempt p.attemptTimeout, .pause (p.backoff i)]) ++ [.attempt p.attemptTimeout]

theorem steps_succ (p : RetryPolicy) (first retries : Nat) :
    p.steps first (retries + 1) =
      .attempt p.attemptTimeout :: .pause (p.backoff first) ::
        p.steps (first + 1) retries := rfl

/-- No pause among the steps is longer than the greatest backoff. -/
theorem le_of_pause_mem_steps (p : RetryPolicy) {first retries : Nat} {duration : Nanos}
    (h : .pause duration ∈ p.steps first retries) : duration ≤ p.maxBackoff := by
  simp only [steps, List.mem_append, List.mem_flatMap, List.mem_cons, List.not_mem_nil, or_false,
    reduceCtorEq, false_or, RetryStep.pause.injEq] at h
  obtain ⟨i, -, rfl⟩ := h
  exact p.backoff_le i

variable [Transient ε]

/-- The outcome of an attempt of a script under the limit of a policy: the timeout if it overruns. -/
def outcome (p : RetryPolicy) (script : Nat → Trial ε α) (i : Nat) : Except ε α :=
  ((script i).under p.attemptTimeout).getD (.error Transient.timedOut)

theorem attempt_script (p : RetryPolicy) (script : Nat → Trial ε α) (n : Nat)
    (before : List RetryStep) :
    p.attempt (RetryLog.attempt script) ⟨n, before⟩ =
      (p.outcome script n, ⟨n + 1, before ++ [.attempt p.attemptTimeout]⟩) :=
  p.attempt_eq _ _

end RetryPolicy

section Scripts

variable [Transient ε] (p : RetryPolicy) (script : Nat → Trial ε α)

/-- From any attempt on, a call ends with the first final outcome or with its last retry. -/
theorem retryFrom_script (left : Nat) : ∀ (n : Nat) (before : List RetryStep), ∃ k,
    (∀ i < k, ¬Final (p.outcome script (n + i)) ∧ i < left) ∧
      (Final (p.outcome script (n + k)) ∨ k = left) ∧
      retryFrom p RetryLog.pause (RetryLog.attempt script) n left ⟨n, before⟩ =
        (p.outcome script (n + k), ⟨n + k + 1, before ++ p.steps n k⟩) := by
  induction left with
  | zero => exact fun n before => ⟨0, nofun, .inr rfl, p.attempt_script script n before⟩
  | succ left ih =>
    intro n before
    by_cases hfinal : Final (p.outcome script n)
    · exact ⟨0, nofun, .inl hfinal,
        retryFrom_of_final hfinal (p.attempt_script script n before) n (left + 1)⟩
    · obtain ⟨e, he, hpassing⟩ := exists_of_not_final hfinal
      obtain ⟨k, hbefore, hend, hrun⟩ := ih (n + 1)
        (before ++ [.attempt p.attemptTimeout] ++ [.pause (p.backoff n)])
      have hattempt := p.attempt_script script n before
      rw [he] at hattempt
      have hshift : ∀ i, n + 1 + i = n + (i + 1) := fun i => by omega
      simp only [hshift] at hbefore hend hrun
      refine ⟨k + 1, fun i hi => ?_, hend.imp_right (congrArg (· + 1)), ?_⟩
      · cases i with
        | zero => exact ⟨hfinal, Nat.succ_pos left⟩
        | succ i =>
          obtain ⟨hnot, hlt⟩ := hbefore i (Nat.lt_of_succ_lt_succ hi)
          exact ⟨hnot, Nat.succ_lt_succ hlt⟩
      · rw [retryFrom_of_passing hpassing hattempt]
        refine hrun.trans ?_
        rw [p.steps_succ, List.append_assoc, List.append_assoc]
        rfl

/-- The call ends with the attempt number `k`. -/
structure KeepsBudget (k : Nat) : Prop where
  /-- It is the first one with a final outcome, unless the retries are used up before. -/
  least : IsLeast {i | Final (p.outcome script i) ∨ i = p.maxRetries.toNat} k
  /-- An overrun is not final. -/
  overrun : ¬Final (.error Transient.timedOut : Except ε α)
  run : retry p RetryLog.pause (RetryLog.attempt script) {} =
    (p.outcome script k, ⟨k + 1, p.steps 0 k⟩)
  pauses : ∀ duration, .pause duration ∈ p.steps 0 k → duration ≤ p.maxBackoff
  /-- A counter of 32 bits does. -/
  counting : retryCounting p RetryLog.pause (RetryLog.attempt script) 0 {} =
    (some (p.outcome script k), ⟨k + 1, p.steps 0 k⟩)

theorem exists_keepsBudget (htimedOut : Transient.isTransient (Transient.timedOut : ε) = true) :
    ∃ k, KeepsBudget p script k := by
  obtain ⟨k, hbefore, hend, hrun⟩ := retryFrom_script p script p.maxRetries.toNat 0 []
  simp only [Nat.zero_add, List.nil_append] at hbefore hend hrun
  refine ⟨k, {
    least := ⟨hend, fun i hi => ?_⟩
    overrun := fun hfinal => ?_
    run := by rw [retry_eq, hrun]
    pauses := fun duration => p.le_of_pause_mem_steps
    counting := ?_ }⟩
  · refine Nat.le_of_not_lt fun hlt => ?_
    obtain ⟨hnot, hleft⟩ := hbefore i hlt
    rcases hi with hfinal | rfl
    · exact hnot hfinal
    · exact Nat.lt_irrefl _ hleft
  · exact Bool.noConfusion (htimedOut.symm.trans hfinal)
  · rw [retryCounting_eq p RetryLog.pause (RetryLog.attempt script) p.maxRetries.toNat 0
      (Nat.zero_add _)]
    exact congrArg (fun r => (some r.1, r.2)) hrun

end Scripts

/-- A retried call keeps its budget exactly, whatever its attempts would do. -/
theorem retry_keepsBudget (p : RetryPolicy) :
    (∀ {α : Type} (script : Nat → Trial StoreError α), ∃ k, KeepsBudget p script k) ∧
      ∀ {α : Type} (script : Nat → Trial ControlError α), ∃ k, KeepsBudget p script k :=
  ⟨fun script => exists_keepsBudget p script rfl, fun script => exists_keepsBudget p script rfl⟩

end Rollout
