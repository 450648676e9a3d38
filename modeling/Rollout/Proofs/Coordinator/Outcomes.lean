import Rollout.Proofs.Coordinator.Handling

/-!
# The contract of a trigger

What a trigger comes to, told without its stages.  `World.IsAttempt` are the records that a trigger
may be for.  Where there is none, a trigger is answered with a failure and nothing changes.
Otherwise it succeeds, and `World.Fulfilled` relates its outcome and the world after it to the world
before: which attempt the outcome names, which rows are written, which executions end, and that
everything else stays as it was.

The stages of a trigger act on the engine twice, when other executions are stopped and when the
execution itself is.  Neither changes whether another stop would be granted, so all that the
contract says of the engine is told from the engine before.
-/

namespace Rollout

namespace World

/-! ## Attempts -/

/-- A record that a trigger may be for: one of its object and its target that is no template. -/
def IsAttempt (t : Trigger) (w : World RecordTable) (r : Record) : Prop :=
  r ∈ w.store.records.values ∧ r.deployment = t.deployment ∧ r.object = t.object ∧
    r.time ≠ templateTime

section Attempts

variable {t : Trigger} {w : World RecordTable}

theorem isAttempt_iff {r : Record} :
    w.IsAttempt t r ↔ r ∈ w.store.ofObject t.object t.deployment ∧ (!r.isTemplate) = true := by
  rw [IsAttempt, RecordTable.mem_ofObject, Record.isTemplate, Bool.not_eq_true',
    beq_eq_false_iff_ne, and_assoc, and_assoc]

theorem not_isAttempt_of_none (h : w.attempt? t = none) (r : Record) : ¬ w.IsAttempt t r := by
  rw [isAttempt_iff]
  rintro ⟨hr, htemplate⟩
  exact List.find?_eq_none.mp h r hr htemplate

/-- The attempt that a trigger finds is one, and no attempt is older. -/
theorem oldest_of_attempt? (hkeyed : w.store.Keyed) {r : Record} (h : w.attempt? t = some r) :
    w.IsAttempt t r ∧ ∀ other, w.IsAttempt t other → r.time ≤ other.time := by
  have hsorted := hkeyed.pairwise_ofObject t.object t.deployment
  obtain ⟨htemplate, before, behind, hsplit, hbefore⟩ := List.find?_eq_some_iff_append.mp h
  have hr : w.IsAttempt t r := isAttempt_iff.mpr ⟨mem_ofObject_of_attempt? h, htemplate⟩
  refine ⟨hr, fun other hother => ?_⟩
  obtain ⟨hmem, hkept⟩ := isAttempt_iff.mp hother
  rw [hsplit] at hmem hsorted
  rcases List.mem_append.mp hmem with hmem | hmem
  · exact absurd hkept (Bool.eq_false_iff.mp (by simpa using hbefore other hmem))
  · rcases List.mem_cons.mp hmem with rfl | hmem
    · exact UInt64.le_refl _
    · have hbehind := (List.pairwise_append.mp hsorted).2.1
      exact UInt64.le_of_lt (List.rel_of_pairwise_cons hbehind hmem)

end Attempts

/-! ## The contract -/

/-- What an outcome and the world after a trigger have to do with the world before it. -/
structure Fulfilled (t : Trigger) (w : World RecordTable) (o : Outcome) (w' : World RecordTable) :
    Prop where
  /-- The outcome names the oldest attempt and tells whether the target of that attempt is busy. -/
  attempt : ∃ r, w.IsAttempt t r ∧ (∀ other, w.IsAttempt t other → r.time ≤ other.time) ∧
    o.record = r.key ∧ o.phase = if w.isBusy r.stack then .selfAborted else .proceeding
  /-- The rows of the object and the target, its template among them, record the execution; they are
  the same otherwise, and so are all other rows. -/
  rows : ∀ key, w'.store.records.get? key = (w.store.records.get? key).map fun r =>
    if r.deployment = t.deployment ∧ r.object = t.object then
      { r with executions := r.executions.insert (attemptKey t.execution) t.execution }
    else r
  /-- What ends are the superseded executions and, when the target is busy, the execution itself,
  provided its stop is granted. -/
  ended : ∀ execution,
    (w.engine.isRunning execution = true ∧ w'.engine.isRunning execution = false) ↔
      execution ∈ o.superseded ∨
        execution = t.execution ∧ o.phase = .selfAborted ∧ w.engine.Stoppable execution
  /-- What does not end keeps its places under every workflow. -/
  running : ∀ workflow,
    w'.engine.runningOf workflow = (w.engine.runningOf workflow).filter w'.engine.isRunning
  /-- The stops are logged, that of the execution itself as the last one. -/
  stops : ∃ own, w'.engine.stops =
      w.engine.stops ++ o.superseded.map (Stop.mk · Coordinator.supersededCause) ++ own ∧
    ∀ stop, stop ∈ own ↔ stop = ⟨t.execution, Coordinator.targetBusyCause⟩ ∧
      o.phase = .selfAborted ∧ w.engine.Stoppable t.execution
  /-- No execution supersedes itself. -/
  others : t.execution ∉ o.superseded
  history : o.history =
    [.received, .admissionChecked, .registeredAndContinuing, .targetBusyChecked, o.phase]
  refused : w'.engine.refused = w.engine.refused
  busy : w'.busy = w.busy

section Handled

variable {settings : CoordinatorSettings} {t : Trigger} {r : Record} {w : World RecordTable}

theorem not_mem_superseded_self : t.execution ∉ w.superseded settings t := by
  intro h
  exact (mem_rivals.mp (mem_superseded.mp h).1).2.1 rfl

theorem stoppable_admitted :
    (w.admitted settings t).engine.Stoppable t.execution ↔ w.engine.Stoppable t.execution := by
  rw [admitted, Engine.stoppable_stopEach]
  exact and_iff_left not_mem_superseded_self

/-- The stops of the execution itself that are granted. -/
def ownStops (settings : CoordinatorSettings) (t : Trigger) (r : Record) (w : World RecordTable) :
    List String :=
  if w.isBusy r.stack then
    (Engine.stopEach Coordinator.targetBusyCause [t.execution] (w.admitted settings t).engine).1
  else []

theorem mem_ownStops {execution : String} :
    execution ∈ w.ownStops settings t r ↔
      execution = t.execution ∧ w.isBusy r.stack = true ∧ w.engine.Stoppable execution := by
  rw [ownStops]
  cases w.isBusy r.stack with
  | false => simp
  | true =>
    rw [if_pos rfl, Engine.mem_stopEach, List.mem_singleton]
    refine and_congr_right ?_
    rintro rfl
    simpa using stoppable_admitted

theorem engine_handled : (w.handled settings t r).engine =
    if w.isBusy r.stack then
      (Engine.stopEach Coordinator.targetBusyCause [t.execution] (w.admitted settings t).engine).2
    else (w.admitted settings t).engine := by
  rw [handled]
  split <;> rfl

/-- What runs after a trigger ran before, was not superseded and has not stopped itself. -/
theorem isRunning_handled {execution : String} :
    (w.handled settings t r).engine.isRunning execution = true ↔
      w.engine.isRunning execution = true ∧ execution ∉ w.superseded settings t ∧
        execution ∉ w.ownStops settings t r := by
  have hadmitted : (w.admitted settings t).engine.isRunning execution = true ↔
      w.engine.isRunning execution = true ∧ execution ∉ w.superseded settings t :=
    Engine.isRunning_stopEach
  rw [engine_handled, ownStops]
  split
  · rw [Engine.isRunning_stopEach, hadmitted, and_assoc]
  · simpa using hadmitted

theorem runningOf_handled (workflow : String) :
    (w.handled settings t r).engine.runningOf workflow =
      (w.engine.runningOf workflow).filter (w.handled settings t r).engine.isRunning := by
  have hadmitted : (w.admitted settings t).engine.runningOf workflow =
      (w.engine.runningOf workflow).filter (w.admitted settings t).engine.isRunning :=
    Engine.runningOf_stopEach_eq_filter _ _ _ _
  rw [engine_handled]
  split
  · rw [Engine.runningOf_stopEach_eq_filter, hadmitted, List.filter_filter]
    refine List.filter_congr fun x _ => ?_
    rw [Bool.eq_iff_iff, Bool.and_eq_true]
    exact and_iff_left_of_imp fun hx => (Engine.isRunning_stopEach.mp hx).1
  · exact hadmitted

theorem stops_handled : (w.handled settings t r).engine.stops =
    w.engine.stops ++ (w.superseded settings t).map (Stop.mk · Coordinator.supersededCause) ++
      (w.ownStops settings t r).map (Stop.mk · Coordinator.targetBusyCause) := by
  have hadmitted : (w.admitted settings t).engine.stops =
      w.engine.stops ++ (w.superseded settings t).map (Stop.mk · Coordinator.supersededCause) :=
    Engine.stops_stopEach _ _ _
  rw [engine_handled, ownStops]
  split
  · rw [Engine.stops_stopEach, hadmitted]
  · rw [hadmitted, List.map_nil, List.append_nil]

theorem busy_handled : (w.handled settings t r).busy = w.busy := by
  rw [handled]
  split <;> rfl

theorem phase_outcome :
    (w.outcome settings t r).phase = .selfAborted ↔ w.isBusy r.stack = true := by
  rw [outcome]
  cases w.isBusy r.stack <;> simp

theorem get?_handled (key : RecordKey) :
    (w.handled settings t r).store.records.get? key = (w.store.records.get? key).map fun r =>
      if r.deployment = t.deployment ∧ r.object = t.object then
        { r with executions := r.executions.insert (attemptKey t.execution) t.execution }
      else r := by
  rw [store_handled, RecordTable.get?_changeRows]
  refine congrArg (Option.map · _) (funext fun r => ?_)
  simp only [Bool.and_eq_true, beq_iff_eq, Record.apply]

/-- A trigger whose attempt is found fulfils the contract. -/
theorem fulfilled_handled (hkeyed : w.store.Keyed) (h : w.attempt? t = some r) :
    Fulfilled t w (w.outcome settings t r) (w.handled settings t r) where
  attempt := ⟨r, (oldest_of_attempt? hkeyed h).1, (oldest_of_attempt? hkeyed h).2, rfl, rfl⟩
  rows := get?_handled
  ended execution := by
    have hown : (execution = t.execution ∧ (w.outcome settings t r).phase = .selfAborted ∧
        w.engine.Stoppable execution) ↔ execution ∈ w.ownStops settings t r := by
      rw [mem_ownStops, phase_outcome]
    rw [← Bool.not_eq_true, isRunning_handled, hown]
    constructor
    · rintro ⟨hrunning, hended⟩
      exact Classical.byContradiction fun hkept => hended ⟨hrunning, not_or.mp hkept⟩
    · rintro (hmem | hmem)
      · exact ⟨(mem_superseded.mp hmem).2.2, fun hkept => hkept.2.1 hmem⟩
      · exact ⟨(mem_ownStops.mp hmem).2.2.2, fun hkept => hkept.2.2 hmem⟩
  running := runningOf_handled
  stops := by
    refine ⟨_, stops_handled, fun stop => ?_⟩
    rw [List.mem_map, phase_outcome]
    constructor
    · rintro ⟨execution, hmem, rfl⟩
      obtain ⟨rfl, hbusy, hstop⟩ := mem_ownStops.mp hmem
      exact ⟨rfl, hbusy, hstop⟩
    · rintro ⟨rfl, hbusy, hstop⟩
      exact ⟨t.execution, mem_ownStops.mpr ⟨rfl, hbusy, hstop⟩, rfl⟩
  others := not_mem_superseded_self
  history := rfl
  refused := refused_handled
  busy := busy_handled

end Handled

/-- A trigger that no attempt is there for is answered with a failure and changes nothing.  Any
other succeeds and fulfils the contract. -/
theorem handle_contract (settings : CoordinatorSettings) (t : Trigger) (w : World RecordTable)
    (hkeyed : w.store.Keyed) :
    ((∀ r, ¬ w.IsAttempt t r) →
        ((coordinator settings).handle t).run w =
          (.error (.notFound t.object t.deployment), w)) ∧
      ((∃ r, w.IsAttempt t r) → ∃ o w',
        ((coordinator settings).handle t).run w = (.ok o, w') ∧ Fulfilled t w o w') := by
  cases hattempt : w.attempt? t with
  | none =>
    refine ⟨fun _ => run_handle_of_none settings t w hattempt, ?_⟩
    rintro ⟨r, hr⟩
    exact absurd hr (not_isAttempt_of_none hattempt r)
  | some r =>
    refine ⟨fun hnone => ?_, fun _ => ?_⟩
    · exact absurd (oldest_of_attempt? hkeyed hattempt).1 (hnone r)
    · exact ⟨_, _, run_handle_of_some settings t w hkeyed hattempt,
        fulfilled_handled hkeyed hattempt⟩

/-! ## A trigger for a busy target -/

/-- The oldest attempt of the target, where two executions are recorded. -/
def contestedAttempt : Record :=
  { Record.minimal "live" 4 "app" "stack" with
    executions := .ofList [("one", "deploy:one:1"), ("two", "deploy:two:1")] }

/-- The stack of the oldest attempt is busy.  One of the recorded executions runs three times, the
stops of the other are refused. -/
def contested : World RecordTable where
  store := .ofList [.minimal "live" 0 "app" "stack", .minimal "live" 9 "app" "spare",
    contestedAttempt, .minimal "live" 5 "site" "stack"]
  engine := ((((({} : Engine).start "deploy" "deploy:one:1").start "deploy" "deploy:two:1").start
    "deploy" "deploy:one:1").start "repair" "deploy:one:1").start "deploy" "deploy:three:1"
      |>.refuseStops "deploy:two:1"
  busy := ["stack"]

/-- A third execution for the contested target. -/
def third : Trigger := ⟨"deploy:three:1", "deploy", "app", "live"⟩

/-- The third execution supersedes the one that can be stopped and then stops itself. -/
def thirdOutcome : Outcome where
  record := ⟨"live", 4⟩
  superseded := ["deploy:one:1"]
  phase := .selfAborted
  history := [.received, .admissionChecked, .registeredAndContinuing, .targetBusyChecked,
    .selfAborted]

theorem handle_contract_contested :
    contested.store.Keyed ∧ contested.IsAttempt third contestedAttempt ∧
      ∃ w', ((coordinator {}).handle third).run contested = (.ok thirdOutcome, w') ∧
        Fulfilled third contested thirdOutcome w' := by
  have hkeyed : contested.store.Keyed := RecordTable.keyed_ofList _
  have hattempt : contested.IsAttempt third contestedAttempt := by
    refine ⟨?_, rfl, rfl, by decide⟩
    decide +kernel
  have hanswer : (((coordinator {}).handle third).run contested).1 = .ok thirdOutcome := by
    decide +kernel
  obtain ⟨o, w', hrun, hfulfilled⟩ := (handle_contract {} third contested hkeyed).2 ⟨_, hattempt⟩
  rw [hrun] at hanswer
  obtain rfl : o = thirdOutcome := Except.ok.inj hanswer
  exact ⟨hkeyed, hattempt, w', hrun, hfulfilled⟩

end World

end Rollout
