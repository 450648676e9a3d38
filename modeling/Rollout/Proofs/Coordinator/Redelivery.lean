import Rollout.Proofs.Coordinator.Outcomes

/-!
# Triggers that are delivered twice

A trigger that succeeded may be delivered again.  The second delivery has the same outcome, but that
nothing is left to supersede, and it changes nothing (`World.handle_again`).

It does not decide on the same data.  The first delivery has written its execution on the rows of
the target, where it may have overwritten another one, and it has stopped executions.  Both can only
make fewer executions rivals: a row names no execution that it did not name before, apart from the
one that was written (`World.mem_rivals_of_handled`).  What is a rival still was refused its stop
and is refused it again.
-/

namespace Rollout

/-- A record names no executions after an execution is set but this one and those before. -/
theorem Record.mem_executions_of_apply {r : Record} {attempt execution other : String}
    (h : other ∈ (r.apply (.setExecution attempt execution)).executions.values) :
    other = execution ∨ other ∈ r.executions.values := by
  obtain ⟨key, hget⟩ := SortedMap.mem_values.mp h
  rw [apply, SortedMap.get?_insert] at hget
  split at hget
  next => exact .inl (Option.some.inj hget).symm
  next => exact .inr (SortedMap.mem_values.mpr ⟨key, hget⟩)

namespace World

open Coordinator

section Again

variable {settings : CoordinatorSettings} {t : Trigger} {r : Record} {w : World RecordTable}

/-- The deploy attempt of a trigger stays its attempt. -/
theorem attempt?_handled (h : w.attempt? t = some r) :
    (w.handled settings t r).attempt? t =
      some (r.apply (.setExecution (attemptKey t.execution) t.execution)) := by
  obtain ⟨_, hdeployment, hobject⟩ := RecordTable.mem_ofObject.mp (mem_ofObject_of_attempt? h)
  have hkept : ((fun row => !row.isTemplate) ∘ fun row : Record =>
      if row.deployment == t.deployment && row.object == t.object then
        row.apply (.setExecution (attemptKey t.execution) t.execution) else row) =
      fun row => !row.isTemplate := by
    funext row
    rw [Function.comp_apply]
    split
    next => rw [Record.isTemplate_apply]
    next => rfl
  have hfind : (w.store.ofObject t.object t.deployment).find? (fun row => !row.isTemplate) =
      some r := h
  rw [attempt?, store_handled, RecordTable.ofObject_changeRows, List.find?_map, hkept, hfind,
    Option.map_some, hdeployment, hobject, beq_self_eq_true, beq_self_eq_true, Bool.and_self,
    if_pos rfl]

/-- Who is a rival after a trigger was one before. -/
theorem mem_rivals_of_handled {execution : String}
    (h : execution ∈ (w.handled settings t r).rivals settings t) :
    execution ∈ w.rivals settings t := by
  obtain ⟨hrunning, hother, row, hrow, hvalue⟩ := mem_rivals.mp h
  rw [store_handled, RecordTable.latest_changeRows] at hrow
  obtain ⟨before, hbefore, rfl⟩ := List.mem_map.mp hrow
  refine mem_rivals.mpr ⟨(mem_runningOf_handled hrunning).1, hother, before, hbefore, ?_⟩
  split at hvalue
  next => exact (Record.mem_executions_of_apply hvalue).resolve_left hother
  next => exact hvalue

/-- No rival that is left can be stopped. -/
theorem not_stoppable_of_mem_rivals {execution : String}
    (h : execution ∈ (w.handled settings t r).rivals settings t) :
    ¬ (w.handled settings t r).engine.Stoppable execution := by
  rintro ⟨hgranted, hrunning⟩
  rw [refused_handled] at hgranted
  exact hgranted (mem_refused_of_isRunning (mem_rivals_of_handled h) hrunning)

/-- An execution that was to stop itself can be stopped no more. -/
theorem not_stoppable_self (hbusy : w.isBusy r.stack = true) :
    ¬ (w.handled settings t r).engine.Stoppable t.execution := by
  rw [engine_handled, if_pos hbusy, Engine.stoppable_stopEach, Engine.mem_stopEach]
  rintro ⟨hstop, hkept⟩
  exact hkept ⟨List.mem_singleton_self _, hstop⟩

theorem superseded_handled : (w.handled settings t r).superseded settings t = [] := by
  rw [superseded, Engine.stopEach_of_forall_not_stoppable fun _ => not_stoppable_of_mem_rivals]

theorem isBusy_handled (target : String) :
    (w.handled settings t r).isBusy target = w.isBusy target := by
  rw [isBusy, busy_handled, isBusy]

/-- Admission and registration leave the world as the trigger left it. -/
theorem registered_admitted_handled :
    ((w.handled settings t r).admitted settings t).registered t = w.handled settings t r := by
  have hengine : (Engine.stopEach supersededCause ((w.handled settings t r).rivals settings t)
      (w.handled settings t r).engine).2 = (w.handled settings t r).engine := by
    rw [Engine.stopEach_of_forall_not_stoppable fun _ => not_stoppable_of_mem_rivals]
  have hstore : (w.handled settings t r).store.changeRows t.object t.deployment
      (.setExecution (attemptKey t.execution) t.execution) = (w.handled settings t r).store := by
    rw [store_handled, RecordTable.changeRows_changeRows]
  rw [admitted, registered, hengine, hstore]

/-- So does the request to stop itself. -/
theorem handled_handled (change : Record.Change) :
    (w.handled settings t r).handled settings t (r.apply change) = w.handled settings t r := by
  rw [handled, registered_admitted_handled, isBusy_handled, Record.stack_apply]
  split
  next hbusy =>
    have hself : ∀ execution ∈ [t.execution],
        ¬ (w.handled settings t r).engine.Stoppable execution := by
      intro execution hmem
      rw [List.mem_singleton.mp hmem]
      exact not_stoppable_self hbusy
    rw [withdrawn, Engine.stopEach_of_forall_not_stoppable hself]
  next => rfl

/-- A repeated outcome has nothing to supersede. -/
theorem outcome_handled (change : Record.Change) :
    (w.handled settings t r).outcome settings t (r.apply change) =
      { w.outcome settings t r with superseded := [] } := by
  rw [outcome, isBusy_handled, Record.stack_apply, Record.key_apply, superseded_handled]
  rfl

end Again

/-- A trigger that succeeded, delivered again at once, succeeds with the same attempt, phase and
history, supersedes nothing and changes nothing. -/
theorem handle_again (settings : CoordinatorSettings) (t : Trigger) {w w' : World RecordTable}
    {o : Outcome} (hkeyed : w.store.Keyed)
    (hrun : ((coordinator settings).handle t).run w = (.ok o, w')) :
    ((coordinator settings).handle t).run w' = (.ok { o with superseded := [] }, w') := by
  rcases run_handle_cases hkeyed hrun with ⟨_, heq, _⟩ | ⟨r, hattempt, heq, rfl⟩
  · cases heq
  obtain rfl : o = w.outcome settings t r := Except.ok.inj heq
  have hstored : (w.handled settings t r).store.Keyed := by
    rw [store_handled]
    exact hkeyed.changeRows _ _ _
  rw [run_handle_of_some settings t _ hstored (attempt?_handled hattempt), outcome_handled,
    handled_handled]

/-! ## A trigger that takes an attempt key over -/

/-- An execution of the attempt to which one with refused stops belongs. -/
def takeover : Trigger := ⟨"deploy:two:2", "deploy", "app", "live"⟩

/-- The contested target, with the execution running. -/
def takenOver : World RecordTable :=
  { contested with engine := contested.engine.start "deploy" takeover.execution }

/-- The first delivery stops one execution, overwrites the entry of another one, and stops itself.
The second one finds neither of the two. -/
theorem handle_again_takeover :
    takenOver.store.Keyed ∧ ∃ w',
      ((coordinator {}).handle takeover).run takenOver = (.ok thirdOutcome, w') ∧
        w'.engine.isRunning takeover.execution = false ∧
        w'.engine.isRunning "deploy:two:1" = true ∧
        ((coordinator {}).handle takeover).run w' =
          (.ok { thirdOutcome with superseded := [] }, w') := by
  have hkeyed : takenOver.store.Keyed := RecordTable.keyed_ofList _
  have hanswer : (((coordinator {}).handle takeover).run takenOver).1 = .ok thirdOutcome := by
    decide +kernel
  have hrun : ((coordinator {}).handle takeover).run takenOver =
      (.ok thirdOutcome, (((coordinator {}).handle takeover).run takenOver).2) :=
    Prod.ext hanswer rfl
  exact ⟨hkeyed, _, hrun, by decide +kernel, by decide +kernel,
    handle_again {} takeover hkeyed hrun⟩

end World

end Rollout
