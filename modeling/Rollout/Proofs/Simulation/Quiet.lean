import Rollout.Proofs.Coordinator.Matching
import Rollout.Simulation.Basic

/-!
# Simulations without faults

A simulation with no faults ahead behaves as its world does: each of its calls matches that of the
world, so a trigger comes to the same answer and the same world, and the log is only added to
(`Simulation.alike`).

The log shows what a world does not tell, the requests that were made and not granted.  A trigger
requests the stop of each rival of its execution (`Simulation.logs_handle`).
-/

namespace Rollout

namespace Simulation

open Coordinator

variable {σ α β ε : Type}

/-! ## Calls -/

/-- A simulation of the world that has no faults ahead and a log that goes on from the given one. -/
structure Quiet (log : List LoggedCall) (s : Simulation σ) (w : World σ) : Prop where
  faults : s.faults = {}
  world : s.world = w
  log : log <+: s.log

section Calls

variable {log : List LoggedCall}

/-- An attempt that meets no fault is logged and takes its effect. -/
theorem matches_attempt {x : StateM (Simulation σ) (Except ε α)}
    {effect : StateM (World σ) (Except ε α)} (logged : LoggedCall)
    (h : ∀ world clock log, x ⟨world, {}, clock, log⟩ =
      attempt logged {} {} effect ⟨world, {}, clock, log⟩) : Matches (Quiet log) x effect := by
  rintro ⟨world, faults, clock, before⟩ w ⟨rfl, rfl, hlog⟩
  rw [h, attempt]
  exact ⟨rfl, rfl, rfl, hlog.trans (List.prefix_append _ _)⟩

/-- Nor does it overrun a limit. -/
theorem matches_attemptWithin {call : Call (Simulation σ) ε α} (logged : LoggedCall)
    (effect : StateM (World σ) (Except ε α))
    (h : ∀ limit world clock log, call limit ⟨world, {}, clock, log⟩ =
      attemptWithin limit logged {} {} effect ⟨world, {}, clock, log⟩) (limit : Nanos) :
    Matches (Quiet log) (call limit) (Call.prompt effect limit) := by
  rintro ⟨world, faults, clock, before⟩ w ⟨rfl, rfl, hlog⟩
  rw [h, attemptWithin, Fault.overruns_default, attempt]
  exact ⟨rfl, rfl, rfl, hlog.trans (List.prefix_append _ _)⟩

/-- Time that passes leaves the world alone. -/
theorem matches_delay (elapsed : Nat) :
    Matches (Quiet log) (fun s : Simulation σ => ((), { s with clock := s.clock + elapsed }))
      (fun w : World σ => ((), w)) :=
  fun _ _ h => ⟨rfl, h.faults, h.world, h.log⟩

/-- A simulation without faults is driven as its world. -/
theorem alike (σ : Type) [RecordStore σ] (settings : CoordinatorSettings) (log : List LoggedCall) :
    Alike (Quiet log) (coordinator settings : Coordinator (Simulation σ))
      (World.coordinator settings) where
  settings := rfl
  ofObject object deployment :=
    matches_attemptWithin (.ofObject object deployment) (World.ofObject object deployment)
      fun _ _ _ _ => rfl
  latest deployment count :=
    matches_attemptWithin (.latest deployment count) (World.latest deployment count)
      fun _ _ _ _ => rfl
  update key change :=
    matches_attemptWithin (.update key) (World.update key change) fun _ _ _ _ => rfl
  runningOf workflow :=
    matches_attemptWithin (.runningOf workflow) (World.runningOf workflow) fun _ _ _ _ => rfl
  stop execution cause := matches_attempt (.stop execution cause) fun _ _ _ => rfl
  isBusy target := matches_attemptWithin (.isBusy target) (World.probe target) fun _ _ _ _ => rfl
  pause duration := matches_delay (millisOf duration)

/-- What is in the log stays there. -/
theorem prefix_log {p : StateM (Simulation σ) α} {q : StateM (World σ) α} {s : Simulation σ}
    (hs : s.faults = {}) (h : Matches (Quiet s.log) p q) : s.log <+: (p s).2.log :=
  (h s s.world ⟨hs, rfl, List.prefix_refl _⟩).2.log

end Calls

/-! ## Logged calls -/

/-- From each simulation of a world without faults ahead, the program ends with a call in the
log. -/
def Logs (x : Coordinating (Simulation σ) α) (w : World σ) (call : LoggedCall) : Prop :=
  ∀ s : Simulation σ, s.faults = {} → s.world = w → call ∈ (x.run s).2.log

section Logs

variable {x : Coordinating (Simulation σ) α} {y : Coordinating (World σ) α}
  {f : α → Coordinating (Simulation σ) β} {w w' : World σ} {call : LoggedCall} {a : α}

/-- What the first program logs is in the log in the end. -/
theorem Logs.before (h : Logs x w call) (hx : ∀ log, Matches (Quiet log) x.run y.run)
    (hrun : y.run w = (.ok a, w'))
    (hgrows : ∀ s : Simulation σ, s.faults = {} → s.log <+: ((f a).run s).2.log) :
    Logs (x >>= f) w call := by
  rintro s hs rfl
  obtain ⟨s', hrun', hquiet⟩ := (hx []).run ⟨hs, rfl, List.nil_prefix⟩ hrun
  have hmem := h s hs rfl
  rw [hrun'] at hmem
  rw [run_bind_ok hrun']
  exact (hgrows s' hquiet.faults).subset hmem

/-- So is what is logged behind it. -/
theorem Logs.after (h : Logs (f a) w' call) (hx : ∀ log, Matches (Quiet log) x.run y.run)
    (hrun : y.run w = (.ok a, w')) : Logs (x >>= f) w call := by
  rintro s hs rfl
  obtain ⟨s', hrun', hquiet⟩ := (hx []).run ⟨hs, rfl, List.nil_prefix⟩ hrun
  rw [run_bind_ok hrun']
  exact h s' hquiet.faults hquiet.world

end Logs

theorem log_attempt (logged : LoggedCall) (ahead : Faults) (fault : Fault ε)
    (effect : World σ → Except ε α × World σ) (s : Simulation σ) :
    (s.attempt logged ahead fault effect).2.log = s.log ++ [logged] := by
  rw [attempt]
  cases fault.error <;> rfl

/-! ## Requested stops -/

section Stops

variable [RecordStore σ] (settings : CoordinatorSettings)

/-- A requested stop is logged, granted or not. -/
theorem logs_requestStop (execution cause : String) (w : World σ) :
    Logs ((coordinator settings).requestStop execution cause) w (.stop execution cause) := by
  rintro s - -
  obtain ⟨answer, s', hcall⟩ : ∃ answer s',
      (collaborators : Collaborators (Simulation σ)).stop execution cause s = (answer, s') :=
    ⟨_, _, rfl⟩
  have hlog : s'.log = s.log ++ [.stop execution cause] := by
    refine (congrArg (fun r => r.2.log) hcall).symm.trans ?_
    exact log_attempt (.stop execution cause) _ _ _ s
  have hrun : ((coordinator settings).requestStop execution cause).run s = (.ok answer.isOk, s') :=
    run_requestStop_of_call hcall
  rw [hrun, hlog]
  exact List.mem_append_right _ List.mem_cons_self

theorem logs_stopAll {execution : String} {executions : List String} (h : execution ∈ executions)
    (w : World σ) :
    Logs ((coordinator settings).stopAll executions) w (.stop execution supersededCause) := by
  induction executions generalizing w with
  | nil => cases h
  | cons first rest ih =>
    have hfirst := fun log => (alike σ settings log).inStep.requestStop first supersededCause
    obtain ⟨granted, w', hrun⟩ : ∃ granted w',
        ((World.coordinator settings).requestStop first supersededCause).run w =
          (.ok granted, w') := by
      by_cases hstop : w.engine.Stoppable first
      · exact ⟨_, _, World.run_requestStop_of_stoppable settings w _ hstop⟩
      · exact ⟨_, _, World.run_requestStop_of_not_stoppable settings w _ hstop⟩
    rw [stopAll]
    rcases List.mem_cons.mp h with rfl | h
    · refine (logs_requestStop settings execution supersededCause w).before hfirst hrun
        fun s hs => ?_
      exact prefix_log hs (((alike σ settings _).inStep.stopAll rest).coordinating
        fun stopped => matches_pure _)
    · refine Logs.after ?_ hfirst hrun
      exact (ih h w').before (fun log => (alike σ settings log).inStep.stopAll rest)
        (World.run_stopAll settings rest w') fun s hs => prefix_log hs (matches_pure _)

end Stops

section Rivals

variable (settings : CoordinatorSettings) (t : Trigger) {w : World RecordTable} {execution : String}

theorem logs_admission (h : execution ∈ w.rivals settings t) :
    Logs ((coordinator settings).admission t.execution t.workflow t.deployment) w
      (.stop execution supersededCause) := by
  have hrunning : ((World.coordinator settings).askControl
      (World.collaborators.runningOf t.workflow)).run w =
        (.ok (w.engine.runningOf t.workflow), w) := run_askControl_of_ok rfl
  have hlatest : ((World.coordinator settings).askStore
      (World.collaborators.latest t.deployment settings.window)).run w =
        (.ok (w.store.latest t.deployment settings.window), w) := run_askStore_of_ok rfl
  have hothers : execution ∈ (w.engine.runningOf t.workflow).filter (· != t.execution) :=
    (List.mem_filter.mp h).1
  have halike := alike RecordTable settings
  refine Logs.after ?_ (fun log => (halike log).askControl ((halike log).runningOf _)) hrunning
  rw [if_neg (by rw [List.isEmpty_iff]; exact List.ne_nil_of_mem hothers)]
  refine Logs.after ?_ (fun log => (halike log).askStore ((halike log).latest _ _)) hlatest
  exact logs_stopAll settings h w

/-- A trigger requests the stop of every rival of its execution. -/
theorem logs_handle {r : Record} (hattempt : w.attempt? t = some r)
    (h : execution ∈ w.rivals settings t) :
    Logs ((coordinator settings).handle t) w (.stop execution supersededCause) := by
  have halike := alike RecordTable settings
  refine Logs.after ?_ (fun log => (halike log).inStep.lookup _ _)
    (World.run_lookup_of_some settings t w hattempt)
  refine (logs_admission settings t h).before (fun log => (halike log).inStep.admission _ _ _)
    (World.run_admission settings t w rfl) fun s hs => ?_
  exact prefix_log hs (((halike _).inStep.changeRows _ _ _).coordinating fun _ =>
    ((halike _).inStep.abortIfBusy _ _).coordinating fun phase => matches_pure _)

end Rivals

end Simulation

end Rollout
