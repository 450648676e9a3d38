import Rollout.Coordinator.World
import Rollout.Proofs.Programs
import Rollout.Proofs.Retry
import Rollout.Proofs.Store.Table
import Rollout.Proofs.Workflow.Engine

/-!
# What a trigger does

The programs of a coordinator are run here on a world of a record table, where a call that can be
answered is answered at once.  There is one lemma for each program, and callers use the lemma and
not the program.

The effect of a trigger is told by functions on worlds, one for each of its stages:
`World.admitted`, `World.registered` and `World.withdrawn`, joined in `World.handled`.  A trigger
without a deploy attempt changes nothing (`World.run_handle_of_none`), and any other ends in
`World.handled` (`World.run_handle_of_some`).
-/

namespace Rollout

variable {σ α β : Type}

/-! ## Calls -/

/-- A call that succeeds is not repeated. -/
theorem retry_of_ok {ε : Type} [Transient ε] {p : RetryPolicy} {pause : Nanos → StateM σ Unit}
    {call : Call σ ε α} {a : α} {s s' : σ} (h : call p.attemptTimeout s = (some (.ok a), s')) :
    retry p pause call s = (.ok a, s') :=
  retry_of_final trivial (RetryPolicy.attempt_of_some h)

namespace Coordinator

variable {c : Coordinator σ} {s s' : σ}

theorem run_askStore_of_ok {call : Call σ StoreError α} {a : α}
    (h : call c.settings.retry.attemptTimeout s = (some (.ok a), s')) :
    (c.askStore call).run s = (.ok a, s') :=
  run_bind_eq (retry_of_ok h)

theorem run_askControl_of_ok {call : Call σ ControlError α} {a : α}
    (h : call c.settings.retry.attemptTimeout s = (some (.ok a), s')) :
    (c.askControl call).run s = (.ok a, s') :=
  run_bind_eq (retry_of_ok h)

/-- A stop is granted if its call succeeds, and its failure is passed over. -/
theorem run_requestStop_of_call {execution cause : String} {answer : Except ControlError Unit}
    (h : c.collaborators.stop execution cause s = (answer, s')) :
    (c.requestStop execution cause).run s = (.ok answer.isOk, s') := by
  have hcall : (liftM (c.collaborators.stop execution cause) : Coordinating σ _).run s =
      (.ok answer, s') := run_liftM h
  cases answer with
  | ok _ => exact run_bind_ok hcall
  | error _ => exact run_bind_ok hcall

end Coordinator

/-! ## Stops -/

namespace World

open Coordinator

/-- The coordinator of a world. -/
def coordinator [RecordStore σ] (settings : CoordinatorSettings) : Coordinator (World σ) :=
  ⟨collaborators, settings⟩

/-- A stop is granted by the engine, or it fails and changes nothing. -/
theorem stop_cases (w : World σ) (execution cause : String) :
    (∃ engine, w.engine.stop execution cause = .ok engine ∧
        w.stop execution cause = (.ok (), { w with engine := engine })) ∨
      ∃ e, w.stop execution cause = (.error e, w) := by
  rw [World.stop]
  cases hstop : w.engine.stop execution cause with
  | ok engine => exact .inl ⟨engine, rfl, rfl⟩
  | error e => exact .inr ⟨e, rfl⟩

section Stops

variable [RecordStore σ] (settings : CoordinatorSettings) (w : World σ)

theorem run_requestStop_of_stoppable {execution : String} (cause : String)
    (h : w.engine.Stoppable execution) :
    ((coordinator settings).requestStop execution cause).run w =
      (.ok true, { w with engine := w.engine.stopped execution cause }) := by
  have hstop : w.stop execution cause =
      (.ok (), { w with engine := w.engine.stopped execution cause }) := by
    rw [World.stop, Engine.stop_ok_iff.mpr ⟨h, rfl⟩]
  exact run_requestStop_of_call (c := coordinator settings) hstop

theorem run_requestStop_of_not_stoppable {execution : String} (cause : String)
    (h : ¬ w.engine.Stoppable execution) :
    ((coordinator settings).requestStop execution cause).run w = (.ok false, w) := by
  rcases w.stop_cases execution cause with ⟨engine, hgranted, _⟩ | ⟨e, hstop⟩
  · exact absurd (Engine.stop_ok_iff.mp hgranted).1 h
  · exact run_requestStop_of_call (c := coordinator settings) hstop

/-- The stops of admission are those of the engine, one after the other. -/
theorem run_stopAll : ∀ (executions : List String) (w : World σ),
    ((coordinator settings).stopAll executions).run w =
      (.ok (Engine.stopEach supersededCause executions w.engine).1,
        { w with engine := (Engine.stopEach supersededCause executions w.engine).2 })
  | [], w => rfl
  | execution :: rest, w => by
      rw [stopAll]
      by_cases h : w.engine.Stoppable execution
      · have hstopped := run_requestStop_of_stoppable settings w supersededCause h
        rw [run_bind_ok hstopped, run_bind_ok (run_stopAll rest _),
          Engine.stopEach_cons_of_stoppable h]
        rfl
      · have hrefused := run_requestStop_of_not_stoppable settings w supersededCause h
        rw [run_bind_ok hrefused, run_bind_ok (run_stopAll rest _),
          Engine.stopEach_cons_of_not_stoppable h]
        rfl

end Stops

/-! ## Stages on any store -/

section Stages

variable [RecordStore σ] (settings : CoordinatorSettings) (t : Trigger) (w : World σ)

/-- The executions that an admission which sees the given records asks to stop: others of the
workflow that the records name. -/
def rivalsAmong (records : List Record) : List String :=
  ((w.engine.runningOf t.workflow).filter (· != t.execution)).filter
    (records.flatMap fun r => r.executions.values).contains

variable {w} in
theorem run_askStore_ofObject_of_ok {object deployment : String} {records : List Record}
    (h : RecordStore.ofObject w.store object deployment = .ok records) :
    ((coordinator settings).askStore (collaborators.ofObject object deployment)).run w =
      (.ok records, w) :=
  run_askStore_of_ok (Call.run_prompt (congrArg (·, w) h) settings.retry.attemptTimeout)

theorem run_lookup {records : List Record}
    (h : RecordStore.ofObject w.store t.object t.deployment = .ok records) :
    ((coordinator settings).lookup t.object t.deployment).run w =
      (match records.find? fun r => !r.isTemplate with
        | some r => .ok r
        | none => .error (.notFound t.object t.deployment), w) := by
  refine (run_bind_ok (run_askStore_ofObject_of_ok settings h)).trans ?_
  cases records.find? fun r => !r.isTemplate <;> rfl

theorem run_admission {records : List Record}
    (h : RecordStore.latest w.store t.deployment settings.window = .ok records) :
    ((coordinator settings).admission t.execution t.workflow t.deployment).run w =
      (.ok (Engine.stopEach supersededCause (w.rivalsAmong t records) w.engine).1,
        { w with
          engine := (Engine.stopEach supersededCause (w.rivalsAmong t records) w.engine).2 }) := by
  have hrunning : ((coordinator settings).askControl
      ((coordinator settings).collaborators.runningOf t.workflow)).run w =
        (.ok (w.engine.runningOf t.workflow), w) := run_askControl_of_ok rfl
  refine (run_bind_ok hrunning).trans ?_
  dsimp only
  split
  next hnone =>
    rw [rivalsAmong, List.isEmpty_iff.mp hnone]
    rfl
  next =>
    have hlatest : ((coordinator settings).askStore ((coordinator settings).collaborators.latest
        t.deployment settings.window)).run w = (.ok records, w) :=
      run_askStore_of_ok (Call.run_prompt (congrArg (·, w) h) settings.retry.attemptTimeout)
    refine (run_bind_ok hlatest).trans ?_
    exact run_stopAll settings (w.rivalsAmong t records) w

variable {w} in
/-- A change that the store makes is made in the world. -/
theorem run_askStore_update_of_ok {key : RecordKey} {change : Record.Change} {s : σ}
    (h : RecordStore.update key change w.store = .ok s) :
    ((coordinator settings).askStore (collaborators.update key change)).run w =
      (.ok (), { w with store := s }) := by
  refine run_askStore_of_ok (Call.run_prompt ?_ settings.retry.attemptTimeout)
  rw [World.update, h]

theorem run_abortIfBusy (target : String) :
    ((coordinator settings).abortIfBusy target t.execution).run w =
      if w.isBusy target then
        (.ok .selfAborted,
          { w with engine := (Engine.stopEach targetBusyCause [t.execution] w.engine).2 })
      else (.ok .proceeding, w) := by
  have hbusy : ((coordinator settings).askControl
      ((coordinator settings).collaborators.isBusy target)).run w = (.ok (w.isBusy target), w) :=
    run_askControl_of_ok rfl
  refine (run_bind_ok hbusy).trans ?_
  cases w.isBusy target with
  | false => rfl
  | true =>
    rw [if_pos rfl]
    by_cases hstop : w.engine.Stoppable t.execution
    · rw [Engine.stopEach_cons_of_stoppable hstop]
      exact run_bind_ok (run_requestStop_of_stoppable settings w _ hstop)
    · rw [Engine.stopEach_cons_of_not_stoppable hstop]
      exact run_bind_ok (run_requestStop_of_not_stoppable settings w _ hstop)

end Stages

/-! ## Rows -/

section Rows

variable (settings : CoordinatorSettings) (w : World RecordTable)

theorem run_askStore_ofObject (object deployment : String) :
    ((coordinator settings).askStore (collaborators.ofObject object deployment)).run w =
      (.ok (w.store.ofObject object deployment), w) :=
  run_askStore_of_ok rfl

/-- A row that exists is changed. -/
theorem run_askStore_update {key : RecordKey} {r : Record} (change : Record.Change)
    (h : w.store.records.get? key = some r) :
    ((coordinator settings).askStore (collaborators.update key change)).run w =
      (.ok (), { w with store := ⟨w.store.records.insert key (r.apply change)⟩ }) := by
  refine run_askStore_update_of_ok settings ?_
  show w.store.update key change = _
  rw [RecordTable.update, h]

/-- Changing rows one after the other changes each of them once. -/
theorem run_updateAll (change : Record.Change) : ∀ (keys : List RecordKey) (w : World RecordTable),
    keys.Nodup → (∀ key ∈ keys, w.store.records.get? key ≠ none) →
    ∃ t : RecordTable,
      ((coordinator settings).updateAll change keys).run w = (.ok (), { w with store := t }) ∧
      ∀ key, t.records.get? key = (w.store.records.get? key).map fun r =>
        if key ∈ keys then r.apply change else r
  | [], w, _, _ => by
      refine ⟨w.store, rfl, fun key => ?_⟩
      simp
  | key :: rest, w, hnodup, hfound => by
      obtain ⟨hkey, hrest⟩ := List.nodup_cons.mp hnodup
      obtain ⟨r, hr⟩ := Option.ne_none_iff_exists'.mp (hfound key List.mem_cons_self)
      have hfirst := run_askStore_update settings w change hr
      have hget : ∀ other, (w.store.records.insert key (r.apply change)).get? other =
          (w.store.records.get? other).map fun r => if other = key then r.apply change else r := by
        intro other
        rw [SortedMap.get?_insert]
        by_cases h : other = key
        · simp [h, hr]
        · simp [h]
      obtain ⟨t, hrun, ht⟩ := run_updateAll change rest
        { w with store := ⟨w.store.records.insert key (r.apply change)⟩ } hrest (by
          intro other hother
          have := hfound other (List.mem_cons_of_mem _ hother)
          rw [hget other]
          simpa using this)
      refine ⟨t, ?_, fun other => ?_⟩
      · rw [updateAll]
        exact (run_bind_ok hfirst).trans hrun
      · rw [ht other, hget other, Option.map_map]
        refine congrArg (Option.map · _) (funext fun s => ?_)
        by_cases h : other = key
        · subst h
          simp [hkey]
        · simp [h]

/-- A change of the rows of an object and a target. -/
theorem run_changeRows (hkeyed : w.store.Keyed) (object deployment : String)
    (change : Record.Change) :
    ((coordinator settings).changeRows object deployment change).run w =
      (.ok (w.store.ofObject object deployment).length,
        { w with store := w.store.changeRows object deployment change }) := by
  have hkeys : ∀ key r, w.store.records.get? key = some r →
      (key ∈ (w.store.ofObject object deployment).map Record.key ↔
        (r.deployment == deployment && r.object == object) = true) := by
    intro key r hget
    rw [List.mem_map, Bool.and_eq_true, beq_iff_eq, beq_iff_eq]
    constructor
    · rintro ⟨s, hs, rfl⟩
      obtain ⟨hvalue, hnames⟩ := RecordTable.mem_ofObject.mp hs
      rw [hkeyed.mem_values, hget] at hvalue
      cases hvalue
      exact hnames
    · intro hnames
      refine ⟨r, RecordTable.mem_ofObject.mpr ⟨SortedMap.mem_values.mpr ⟨key, hget⟩, hnames⟩, ?_⟩
      exact hkeyed key r hget
  obtain ⟨t, hrun, ht⟩ := run_updateAll settings change
    ((w.store.ofObject object deployment).map Record.key) w
    (hkeyed.nodup_keys_ofObject object deployment) (by
      intro key hkey hnone
      obtain ⟨s, hs, rfl⟩ := List.mem_map.mp hkey
      rw [hkeyed.mem_values.mp (RecordTable.mem_ofObject.mp hs).1] at hnone
      cases hnone)
  have htable : t = w.store.changeRows object deployment change := by
    refine congrArg RecordTable.mk (SortedMap.ext_get? (a := t.records) fun key => ?_)
    rw [ht key]
    refine .trans ?_ (RecordTable.get?_changeRows object deployment change w.store key).symm
    cases hget : w.store.records.get? key with
    | none => rfl
    | some r =>
      refine congrArg some ?_
      simp only [hkeys key r hget]
  rw [htable] at hrun
  refine (run_bind_ok (run_askStore_ofObject settings w object deployment)).trans ?_
  exact run_bind_ok hrun

end Rows

/-! ## The stages of a trigger -/

/-- The executions that admission asks to stop: others of the workflow that recent attempts of the
target record. -/
def rivals (settings : CoordinatorSettings) (t : Trigger) (w : World RecordTable) : List String :=
  ((w.engine.runningOf t.workflow).filter (· != t.execution)).filter
    ((w.store.latest t.deployment settings.window).flatMap fun r => r.executions.values).contains

/-- The executions that admission stops. -/
def superseded (settings : CoordinatorSettings) (t : Trigger) (w : World RecordTable) :
    List String :=
  (Engine.stopEach supersededCause (w.rivals settings t) w.engine).1

/-- The world after admission. -/
def admitted (settings : CoordinatorSettings) (t : Trigger) (w : World RecordTable) :
    World RecordTable :=
  { w with engine := (Engine.stopEach supersededCause (w.rivals settings t) w.engine).2 }

/-- The world after registration. -/
def registered (t : Trigger) (w : World RecordTable) : World RecordTable :=
  { w with
    store := w.store.changeRows t.object t.deployment
      (.setExecution (attemptKey t.execution) t.execution) }

/-- The world after the execution was asked to stop itself. -/
def withdrawn (t : Trigger) (w : World RecordTable) : World RecordTable :=
  { w with engine := (Engine.stopEach targetBusyCause [t.execution] w.engine).2 }

/-- The world after a trigger whose deploy attempt is a given record. -/
def handled (settings : CoordinatorSettings) (t : Trigger) (attempt : Record)
    (w : World RecordTable) : World RecordTable :=
  let after := (w.admitted settings t).registered t
  if w.isBusy attempt.stack then after.withdrawn t else after

/-- The outcome of a trigger whose deploy attempt is a given record. -/
def outcome (settings : CoordinatorSettings) (t : Trigger) (attempt : Record)
    (w : World RecordTable) : Outcome :=
  let phase := if w.isBusy attempt.stack then .selfAborted else .proceeding
  { record := attempt.key
    superseded := w.superseded settings t
    phase := phase
    history := [.received, .admissionChecked, .registeredAndContinuing, .targetBusyChecked, phase] }

section Triggers

variable (settings : CoordinatorSettings) (t : Trigger) (w : World RecordTable)

/-- The deploy attempt of a trigger, if there is one. -/
def attempt? : Option Record :=
  (w.store.ofObject t.object t.deployment).find? fun r => !r.isTemplate

theorem run_lookup_of_some {r : Record} (h : w.attempt? t = some r) :
    ((coordinator settings).lookup t.object t.deployment).run w = (.ok r, w) := by
  have hfind : (w.store.ofObject t.object t.deployment).find? (fun r => !r.isTemplate) = some r := h
  rw [run_lookup settings t w rfl, hfind]

theorem run_lookup_of_none (h : w.attempt? t = none) :
    ((coordinator settings).lookup t.object t.deployment).run w =
      (.error (.notFound t.object t.deployment), w) := by
  have hfind : (w.store.ofObject t.object t.deployment).find? (fun r => !r.isTemplate) = none := h
  rw [run_lookup settings t w rfl, hfind]

/-- A trigger without a deploy attempt fails and changes nothing. -/
theorem run_handle_of_none (h : w.attempt? t = none) :
    ((coordinator settings).handle t).run w = (.error (.notFound t.object t.deployment), w) :=
  run_bind_error (run_lookup_of_none settings t w h)

/-- A trigger with a deploy attempt succeeds. -/
theorem run_handle_of_some (hkeyed : w.store.Keyed) {r : Record} (h : w.attempt? t = some r) :
    ((coordinator settings).handle t).run w =
      (.ok (w.outcome settings t r), w.handled settings t r) := by
  refine (run_bind_ok (run_lookup_of_some settings t w h)).trans ?_
  refine (run_bind_ok (run_admission settings t w rfl)).trans ?_
  refine (run_bind_ok
    (run_changeRows settings (w.admitted settings t) hkeyed _ _ _)).trans ?_
  have habort := run_abortIfBusy settings t ((w.admitted settings t).registered t) r.stack
  have hbusy : ((w.admitted settings t).registered t).isBusy r.stack = w.isBusy r.stack := rfl
  rw [hbusy] at habort
  rw [outcome, handled]
  cases hb : w.isBusy r.stack with
  | false =>
    rw [hb] at habort
    exact run_bind_ok habort
  | true =>
    rw [hb] at habort
    exact run_bind_ok habort

/-- What a trigger can come to. -/
theorem run_handle_cases {settings : CoordinatorSettings} {t : Trigger} {w w' : World RecordTable}
    {answer : Except CoordinatorError Outcome} (hkeyed : w.store.Keyed)
    (h : ((coordinator settings).handle t).run w = (answer, w')) :
    (w.attempt? t = none ∧ answer = .error (.notFound t.object t.deployment) ∧ w' = w) ∨
      ∃ r, w.attempt? t = some r ∧ answer = .ok (w.outcome settings t r) ∧
        w' = w.handled settings t r := by
  cases hattempt : w.attempt? t with
  | none =>
    rw [run_handle_of_none settings t w hattempt] at h
    cases h
    exact .inl ⟨rfl, rfl, rfl⟩
  | some r =>
    rw [run_handle_of_some settings t w hkeyed hattempt] at h
    cases h
    exact .inr ⟨r, rfl, rfl, rfl⟩

end Triggers

/-! ## The world after a trigger -/

section Handled

variable {settings : CoordinatorSettings} {t : Trigger} {r : Record} {w : World RecordTable}

/-- The deploy attempt is a row of the object and the target. -/
theorem mem_ofObject_of_attempt? (h : w.attempt? t = some r) :
    r ∈ w.store.ofObject t.object t.deployment :=
  List.mem_of_find?_eq_some h

@[simp] theorem store_handled : (w.handled settings t r).store =
    w.store.changeRows t.object t.deployment
      (.setExecution (attemptKey t.execution) t.execution) := by
  rw [handled]
  split <;> rfl

@[simp] theorem refused_handled :
    (w.handled settings t r).engine.refused = w.engine.refused := by
  rw [handled]
  split
  · exact (Engine.refused_stopEach _ _ _).trans (Engine.refused_stopEach _ _ _)
  · exact Engine.refused_stopEach _ _ _

/-- What still runs was running and was not superseded. -/
theorem mem_runningOf_handled {workflow execution : String}
    (h : execution ∈ (w.handled settings t r).engine.runningOf workflow) :
    execution ∈ w.engine.runningOf workflow ∧ execution ∉ w.superseded settings t := by
  have hadmitted : ∀ {x}, x ∈ (w.admitted settings t).engine.runningOf workflow →
      x ∈ w.engine.runningOf workflow ∧ x ∉ w.superseded settings t := by
    intro x hx
    rw [admitted, Engine.runningOf_stopEach, List.mem_filter, decide_eq_true_eq] at hx
    exact hx
  rw [handled] at h
  split at h
  · rw [withdrawn, Engine.runningOf_stopEach, List.mem_filter] at h
    exact hadmitted h.1
  · exact hadmitted h

/-- A rival that can be stopped is superseded. -/
theorem mem_superseded {execution : String} :
    execution ∈ w.superseded settings t ↔
      execution ∈ w.rivals settings t ∧ w.engine.Stoppable execution :=
  Engine.mem_stopEach

theorem mem_rivals {execution : String} :
    execution ∈ w.rivals settings t ↔
      execution ∈ w.engine.runningOf t.workflow ∧ execution ≠ t.execution ∧
        ∃ r ∈ w.store.latest t.deployment settings.window, execution ∈ r.executions.values := by
  simp only [rivals, List.mem_filter, bne_iff_ne, List.contains_iff_mem, List.mem_flatMap,
    and_assoc]

/-- A rival that still runs was refused its stop. -/
theorem mem_refused_of_isRunning {execution : String} (hrival : execution ∈ w.rivals settings t)
    (hrunning : (w.handled settings t r).engine.isRunning execution = true) :
    execution ∈ w.engine.refused := by
  obtain ⟨workflow, hmem⟩ := Engine.isRunning_iff.mp hrunning
  obtain ⟨hbefore, hkept⟩ := mem_runningOf_handled hmem
  refine Classical.byContradiction fun hgranted => hkept ?_
  exact mem_superseded.mpr ⟨hrival, hgranted, Engine.isRunning_iff.mpr ⟨workflow, hbefore⟩⟩

/-! ## Enrolled executions -/

/-- The execution of a trigger stands under its attempt key on a row of its object and target. -/
def Enrolled (t : Trigger) (w : World RecordTable) : Prop :=
  ∃ row ∈ w.store.ofObject t.object t.deployment,
    row.executions.get? (attemptKey t.execution) = some t.execution

theorem Enrolled.recorded (h : w.Enrolled t) :
    ∃ row ∈ w.store.ofDeployment t.deployment, t.execution ∈ row.executions.values := by
  obtain ⟨row, hrow, hget⟩ := h
  obtain ⟨hvalue, hdeployment, _⟩ := RecordTable.mem_ofObject.mp hrow
  exact ⟨row, RecordTable.mem_ofDeployment.mpr ⟨hvalue, hdeployment⟩,
    SortedMap.mem_values.mpr ⟨_, hget⟩⟩

/-- A row after a trigger. -/
theorem mem_ofObject_handled {object deployment : String} {row : Record}
    (h : row ∈ w.store.ofObject object deployment) :
    (if row.deployment == t.deployment && row.object == t.object then
      row.apply (.setExecution (attemptKey t.execution) t.execution) else row) ∈
      (w.handled settings t r).store.ofObject object deployment := by
  rw [store_handled, RecordTable.ofObject_changeRows]
  exact List.mem_map_of_mem h

/-- A trigger enrolls its execution. -/
theorem enrolled_handled (h : w.attempt? t = some r) : (w.handled settings t r).Enrolled t := by
  have hr := mem_ofObject_of_attempt? h
  obtain ⟨_, hdeployment, hobject⟩ := RecordTable.mem_ofObject.mp hr
  refine ⟨_, mem_ofObject_handled hr, ?_⟩
  rw [hdeployment, hobject, beq_self_eq_true, beq_self_eq_true, Bool.and_self, if_pos rfl,
    Record.apply, SortedMap.get?_insert, if_pos rfl]

/-- What another trigger enrolled stays enrolled, unless a trigger for another execution of its
attempt writes to the same rows. -/
theorem Enrolled.handled {u : Trigger} (h : w.Enrolled u)
    (hkept : t.object = u.object → t.deployment = u.deployment →
      attemptKey t.execution = attemptKey u.execution → t.execution = u.execution) :
    (w.handled settings t r).Enrolled u := by
  obtain ⟨row, hrow, hget⟩ := h
  obtain ⟨_, hdeployment, hobject⟩ := RecordTable.mem_ofObject.mp hrow
  refine ⟨_, mem_ofObject_handled hrow, ?_⟩
  split
  next hsame =>
    rw [Bool.and_eq_true, beq_iff_eq, beq_iff_eq, hdeployment, hobject] at hsame
    rw [Record.apply, SortedMap.get?_insert]
    split
    next hkey => rw [hkept hsame.2.symm hsame.1.symm hkey.symm]
    next => exact hget
  next => exact hget

end Handled

end World

end Rollout
