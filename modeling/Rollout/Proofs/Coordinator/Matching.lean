import Rollout.Proofs.Coordinator.Handling

/-!
# Programs that match

A coordinator reaches its collaborators through calls only, so what relates the calls of two
coordinators relates all that they do.  `Matches R p q` says that from states related by `R` two
programs come to one answer and to related states.  It is kept by sequencing and retrying.  Where the
calls of two coordinators match when they have been retried (`Coordinator.InStep`), so do the
programs that carry out a trigger (`InStep.handle`), and that is so where each attempt matches
(`Coordinator.Alike`).
-/

namespace Rollout

variable {σ τ α β ε : Type} {R : σ → τ → Prop}

/-! ## Programs -/

/-- From related states both programs come to one answer and to related states. -/
def Matches (R : σ → τ → Prop) (p : StateM σ α) (q : StateM τ α) : Prop :=
  ∀ s t, R s t → (p s).1 = (q t).1 ∧ R (p s).2 (q t).2

theorem matches_pure (a : α) : Matches R (pure a : StateM σ α) (pure a) :=
  fun _ _ h => ⟨rfl, h⟩

theorem Matches.run {p : StateM σ α} {q : StateM τ α} (h : Matches R p q) {s : σ} {t t' : τ} {a : α}
    (hR : R s t) (hq : q t = (a, t')) : ∃ s', p s = (a, s') ∧ R s' t' := by
  obtain ⟨hanswer, hR'⟩ := h s t hR
  rw [hq] at hanswer hR'
  exact ⟨(p s).2, Prod.ext hanswer rfl, hR'⟩

theorem Matches.bind {p : StateM σ α} {q : StateM τ α} {f : α → StateM σ β} {g : α → StateM τ β}
    (h : Matches R p q) (hf : ∀ a, Matches R (f a) (g a)) : Matches R (p >>= f) (q >>= g) := by
  intro s t hR
  obtain ⟨a, t', hq⟩ : ∃ a t', q t = (a, t') := ⟨_, _, rfl⟩
  obtain ⟨s', hp, hR'⟩ := h.run hR hq
  rw [run_bind_eq hp, run_bind_eq hq]
  exact hf a s' t' hR'

/-- A failure ends both programs. -/
theorem Matches.coordinating {x : Coordinating σ α} {y : Coordinating τ α}
    {f : α → Coordinating σ β} {g : α → Coordinating τ β} (h : Matches R x.run y.run)
    (hf : ∀ a, Matches R (f a).run (g a).run) : Matches R (x >>= f).run (y >>= g).run := by
  rw [ExceptT.run_bind, ExceptT.run_bind]
  refine h.bind fun answer => ?_
  cases answer with
  | error e => exact matches_pure _
  | ok a => exact hf a

/-- Calls whose answers match do so under any limit. -/
theorem Matches.prompt {x : StateM σ (Except ε α)} {y : StateM τ (Except ε α)} (h : Matches R x y)
    (limit : Nanos) : Matches R (Call.prompt x limit) (Call.prompt y limit) := fun s t hR =>
  ⟨congrArg some (h s t hR).1, (h s t hR).2⟩

/-- Matching calls are retried alike. -/
theorem matches_retry [Transient ε] (p : RetryPolicy) {pause : Nanos → StateM σ Unit}
    {rest : Nanos → StateM τ Unit} (hpause : ∀ duration, Matches R (pause duration) (rest duration))
    {call : Call σ ε α} {other : Call τ ε α}
    (hcall : ∀ limit, Matches R (call limit) (other limit)) :
    Matches R (retry p pause call) (retry p rest other) := by
  have hattempt : Matches R (p.attempt call) (p.attempt other) := by
    refine (hcall p.attemptTimeout).bind fun result => ?_
    cases result <;> exact matches_pure _
  rw [retry_eq, retry_eq]
  generalize p.maxRetries.toNat = left
  generalize 0 = retries
  induction left generalizing retries with
  | zero => exact hattempt
  | succ left ih =>
    rw [retryFrom, retryFrom]
    refine hattempt.bind fun answer => ?_
    cases answer with
    | ok a => exact matches_pure _
    | error e =>
      dsimp only
      split
      · exact (hpause _).bind fun _ => ih (retries + 1)
      · exact matches_pure _

/-! ## Coordinators -/

namespace Coordinator

/-- Two coordinators with the same settings whose calls match. -/
structure Alike (R : σ → τ → Prop) (c : Coordinator σ) (d : Coordinator τ) : Prop where
  settings : c.settings = d.settings
  ofObject : ∀ object deployment limit,
    Matches R (c.collaborators.ofObject object deployment limit)
      (d.collaborators.ofObject object deployment limit)
  latest : ∀ deployment count limit,
    Matches R (c.collaborators.latest deployment count limit)
      (d.collaborators.latest deployment count limit)
  update : ∀ key change limit,
    Matches R (c.collaborators.update key change limit) (d.collaborators.update key change limit)
  runningOf : ∀ workflow limit,
    Matches R (c.collaborators.runningOf workflow limit) (d.collaborators.runningOf workflow limit)
  stop : ∀ execution cause,
    Matches R (c.collaborators.stop execution cause) (d.collaborators.stop execution cause)
  isBusy : ∀ target limit,
    Matches R (c.collaborators.isBusy target limit) (d.collaborators.isBusy target limit)
  pause : ∀ duration, Matches R (c.collaborators.pause duration) (d.collaborators.pause duration)

/-- Two coordinators that see as many attempts and whose retried calls and stops match. -/
structure InStep (R : σ → τ → Prop) (c : Coordinator σ) (d : Coordinator τ) : Prop where
  window : c.settings.window = d.settings.window
  ofObject : ∀ object deployment,
    Matches R (c.askStore (c.collaborators.ofObject object deployment)).run
      (d.askStore (d.collaborators.ofObject object deployment)).run
  latest : ∀ deployment count,
    Matches R (c.askStore (c.collaborators.latest deployment count)).run
      (d.askStore (d.collaborators.latest deployment count)).run
  update : ∀ key change,
    Matches R (c.askStore (c.collaborators.update key change)).run
      (d.askStore (d.collaborators.update key change)).run
  runningOf : ∀ workflow,
    Matches R (c.askControl (c.collaborators.runningOf workflow)).run
      (d.askControl (d.collaborators.runningOf workflow)).run
  stop : ∀ execution cause,
    Matches R (c.collaborators.stop execution cause) (d.collaborators.stop execution cause)
  isBusy : ∀ target,
    Matches R (c.askControl (c.collaborators.isBusy target)).run
      (d.askControl (d.collaborators.isBusy target)).run

namespace InStep

variable {c : Coordinator σ} {d : Coordinator τ}

theorem requestStop (h : InStep R c d) (execution cause : String) :
    Matches R (c.requestStop execution cause).run (d.requestStop execution cause).run := by
  refine Matches.coordinating ((h.stop execution cause).bind fun _ => matches_pure _) ?_
  rintro (_ | _) <;> exact matches_pure _

theorem lookup (h : InStep R c d) (object deployment : String) :
    Matches R (c.lookup object deployment).run (d.lookup object deployment).run := by
  refine (h.ofObject object deployment).coordinating fun records => ?_
  split <;> exact matches_pure _

theorem stopAll (h : InStep R c d) (executions : List String) :
    Matches R (c.stopAll executions).run (d.stopAll executions).run := by
  induction executions with
  | nil => exact matches_pure _
  | cons execution rest ih =>
    rw [Coordinator.stopAll, Coordinator.stopAll]
    refine (h.requestStop execution supersededCause).coordinating fun granted => ?_
    exact ih.coordinating fun stopped => matches_pure _

theorem admission (h : InStep R c d) (current workflow deployment : String) :
    Matches R (c.admission current workflow deployment).run
      (d.admission current workflow deployment).run := by
  rw [Coordinator.admission, Coordinator.admission, h.window]
  refine (h.runningOf workflow).coordinating fun running => ?_
  dsimp only
  split
  · exact matches_pure _
  · refine (h.latest deployment _).coordinating fun latest => ?_
    exact h.stopAll _

theorem updateAll (h : InStep R c d) (change : Record.Change) (keys : List RecordKey) :
    Matches R (c.updateAll change keys).run (d.updateAll change keys).run := by
  induction keys with
  | nil => exact matches_pure _
  | cons key rest ih =>
    rw [Coordinator.updateAll, Coordinator.updateAll]
    exact (h.update key change).coordinating fun _ => ih

theorem changeRows (h : InStep R c d) (object deployment : String) (change : Record.Change) :
    Matches R (c.changeRows object deployment change).run
      (d.changeRows object deployment change).run := by
  refine (h.ofObject object deployment).coordinating fun records => ?_
  exact (h.updateAll change _).coordinating fun _ => matches_pure _

theorem abortIfBusy (h : InStep R c d) (target current : String) :
    Matches R (c.abortIfBusy target current).run (d.abortIfBusy target current).run := by
  refine (h.isBusy target).coordinating fun busy => ?_
  cases busy with
  | false => exact matches_pure _
  | true =>
    exact (h.requestStop current targetBusyCause).coordinating fun _ => matches_pure _

/-- Coordinators that are in step carry out a trigger alike. -/
theorem handle (h : InStep R c d) (t : Trigger) : Matches R (c.handle t).run (d.handle t).run := by
  refine (h.lookup _ _).coordinating fun record => ?_
  refine (h.admission _ _ _).coordinating fun superseded => ?_
  refine (h.changeRows _ _ _).coordinating fun _ => ?_
  exact (h.abortIfBusy _ _).coordinating fun phase => matches_pure _

end InStep

namespace Alike

variable {c : Coordinator σ} {d : Coordinator τ}

theorem askStore (h : Alike R c d) {call : Call σ StoreError α} {other : Call τ StoreError α}
    (hcall : ∀ limit, Matches R (call limit) (other limit)) :
    Matches R (c.askStore call).run (d.askStore other).run := by
  rw [Coordinator.askStore, Coordinator.askStore, h.settings]
  exact (matches_retry _ h.pause hcall).bind fun _ => matches_pure _

theorem askControl (h : Alike R c d) {call : Call σ ControlError α} {other : Call τ ControlError α}
    (hcall : ∀ limit, Matches R (call limit) (other limit)) :
    Matches R (c.askControl call).run (d.askControl other).run := by
  rw [Coordinator.askControl, Coordinator.askControl, h.settings]
  exact (matches_retry _ h.pause hcall).bind fun _ => matches_pure _

/-- Coordinators that are alike are in step. -/
theorem inStep (h : Alike R c d) : InStep R c d where
  window := congrArg CoordinatorSettings.window h.settings
  ofObject object deployment := h.askStore (h.ofObject object deployment)
  latest deployment count := h.askStore (h.latest deployment count)
  update key change := h.askStore (h.update key change)
  runningOf workflow := h.askControl (h.runningOf workflow)
  stop := h.stop
  isBusy target := h.askControl (h.isBusy target)

/-- So they carry out a trigger alike. -/
theorem handle (h : Alike R c d) (t : Trigger) : Matches R (c.handle t).run (d.handle t).run :=
  h.inStep.handle t

end Alike

end Coordinator

end Rollout
