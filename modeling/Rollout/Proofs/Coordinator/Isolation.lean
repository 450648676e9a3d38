import Rollout.Proofs.Coordinator.Matching
import Rollout.Proofs.Coordinator.Outcomes
import Rollout.Proofs.Coordinator.Courses
import Rollout.Proofs.Store.Refinement

/-!
# Triggers keep to their target

A trigger leaves alone what belongs to other targets: it changes none of their records, and it stops
no execution but its own and those that records of its target name (`World.Isolated`).  On a record
table that is so for all names.  A byte store that represents a table is driven as the table is
(`World.alike_stores`), so it is so there as well, as long as the names of the records are plain
(`World.handle_isolated`).

The separator in a name lets one target reach another: the rows of `live` and a separator and
`blue` stand in the scans for `live`, where a trigger changes and stops them
(`World.reached_by_separator`).
-/

namespace Rollout

namespace World

open Coordinator

/-! ## Isolation -/

section Isolation

variable {σ : Type} [RecordStore σ]

/-- A stored record of the target has the execution. -/
def RecordedOn (deployment execution : String) (w : World σ) : Prop :=
  ∃ key r, RecordStore.get? w.store key = .ok (some r) ∧ r.deployment = deployment ∧
    execution ∈ r.executions.values

/-- What a trigger leaves alone. -/
structure Isolated (t : Trigger) (w w' : World σ) : Prop where
  /-- The records of other targets are the same. -/
  rows : ∀ key : RecordKey, key.deployment ≠ t.deployment →
    RecordStore.get? w'.store key = RecordStore.get? w.store key
  /-- Nothing ends but the execution itself and what the target has recorded. -/
  ended : ∀ execution, w.engine.isRunning execution = true →
    w'.engine.isRunning execution = false →
      execution = t.execution ∨ w.RecordedOn t.deployment execution
  /-- No other stops are granted. -/
  stops : ∃ granted, w'.engine.stops = w.engine.stops ++ granted ∧ ∀ stop ∈ granted,
    stop.execution = t.execution ∨ w.RecordedOn t.deployment stop.execution

end Isolation

section Tables

variable {settings : CoordinatorSettings} {t : Trigger} {w : World RecordTable}

/-- What is superseded is recorded on the target. -/
theorem recordedOn_of_mem_superseded {execution : String}
    (hkeyed : w.store.Keyed) (h : execution ∈ w.superseded settings t) :
    w.RecordedOn t.deployment execution := by
  obtain ⟨-, -, row, hlatest, hvalue⟩ := mem_rivals.mp (mem_superseded.mp h).1
  have hrow := List.mem_reverse.mp (List.mem_of_mem_take hlatest)
  obtain ⟨hmem, hdeployment⟩ := RecordTable.mem_ofDeployment.mp hrow
  exact ⟨row.key, row, congrArg Except.ok (hkeyed.mem_values.mp hmem), hdeployment, hvalue⟩

/-- On a record table a trigger keeps to its target. -/
theorem isolated_handle (hkeyed : w.store.Keyed) :
    Isolated t w (((coordinator settings).handle t).run w).2 := by
  obtain ⟨answer, w', hrun⟩ : ∃ answer w',
      ((coordinator settings).handle t).run w = (answer, w') := ⟨_, _, rfl⟩
  rw [hrun]
  rcases run_handle_cases hkeyed hrun with ⟨_, _, rfl⟩ | ⟨r, hattempt, _, rfl⟩
  · refine ⟨fun _ _ => rfl, ?_, [], (List.append_nil _).symm, nofun⟩
    intro execution hrunning hended
    rw [hrunning] at hended
    cases hended
  have hfulfilled : Fulfilled t w (w.outcome settings t r) (w.handled settings t r) :=
    fulfilled_handled hkeyed hattempt
  refine ⟨fun key hkey => ?_, fun execution hrunning hended => ?_, ?_⟩
  · refine congrArg Except.ok ?_
    rw [hfulfilled.rows]
    cases hget : w.store.records.get? key with
    | none => rfl
    | some row =>
      rw [Option.map_some, if_neg]
      rintro ⟨hdeployment, _⟩
      rw [← hdeployment, ← hkeyed key row hget] at hkey
      exact hkey rfl
  · rcases (hfulfilled.ended execution).mp ⟨hrunning, hended⟩ with hmem | ⟨rfl, _⟩
    · exact .inr (recordedOn_of_mem_superseded hkeyed hmem)
    · exact .inl rfl
  · obtain ⟨own, hstops, hown⟩ := hfulfilled.stops
    refine ⟨_, hstops.trans (List.append_assoc _ _ _), fun stop hmem => ?_⟩
    rcases List.mem_append.mp hmem with hmem | hmem
    · obtain ⟨execution, hsuperseded, rfl⟩ := List.mem_map.mp hmem
      exact .inr (recordedOn_of_mem_superseded hkeyed hsuperseded)
    · rw [((hown stop).mp hmem).1]
      exact .inl rfl

end Tables

/-! ## Worlds of both stores -/

/-- A world of a byte store and one of a record table that differ in nothing but the way they keep
the records. -/
structure Mirrors (w : World ByteStore) (v : World RecordTable) : Prop where
  store : ByteStore.Represents v.store w.store
  engine : w.engine = v.engine
  busy : w.busy = v.busy

/-- The store of a world that mirrors another is asked with the same answers. -/
theorem Mirrors.agree {w : World ByteStore} {v : World RecordTable} (h : Mirrors w v) :
    RecordStore.Agree w.store v.store :=
  h.store.agree

theorem matches_update (key : RecordKey) (change : Record.Change) :
    Matches Mirrors (World.update key change) (World.update key change) := by
  intro w v h
  rcases h.store.update key change with ⟨htable, hbytes⟩ | ⟨table, bytes, htable, hbytes, hstore⟩
  · have htable : RecordStore.update key change v.store = .error (.recordNotFound key) := htable
    have hbytes : RecordStore.update key change w.store = .error (.recordNotFound key) := hbytes
    rw [World.update, World.update, htable, hbytes]
    exact ⟨rfl, h⟩
  · have htable : RecordStore.update key change v.store = .ok table := htable
    have hbytes : RecordStore.update key change w.store = .ok bytes := hbytes
    rw [World.update, World.update, htable, hbytes]
    exact ⟨rfl, hstore, h.engine, h.busy⟩

theorem matches_stop (execution cause : String) :
    Matches Mirrors (World.stop execution cause) (World.stop execution cause) := by
  intro w v h
  rw [World.stop, World.stop, h.engine]
  cases v.engine.stop execution cause with
  | error e => exact ⟨rfl, h⟩
  | ok engine => exact ⟨rfl, h.store, rfl, h.busy⟩

/-- A byte store is driven as the table that it represents. -/
theorem alike_stores (settings : CoordinatorSettings) :
    Alike Mirrors (coordinator settings) (coordinator settings) where
  settings := rfl
  ofObject object deployment :=
    Matches.prompt fun _ _ h => ⟨h.agree.ofObject object deployment, h⟩
  latest deployment count := Matches.prompt fun _ _ h => ⟨h.agree.latest deployment count, h⟩
  update key change := (matches_update key change).prompt
  runningOf workflow := Matches.prompt fun _ _ h =>
    ⟨congrArg (fun engine : Engine => Except.ok (engine.runningOf workflow)) h.engine, h⟩
  stop := matches_stop
  isBusy target := Matches.prompt fun _ _ h =>
    ⟨congrArg (fun busy : List String => Except.ok (busy.contains target)) h.busy, h⟩
  pause _ _ _ h := ⟨rfl, h⟩

/-- What a trigger leaves alone in one world it leaves alone in a world that mirrors it. -/
theorem Isolated.mirrors {t : Trigger} {w w' : World ByteStore} {v v' : World RecordTable}
    (h : Isolated t v v') (hbefore : Mirrors w v) (hafter : Mirrors w' v') : Isolated t w w' := by
  have hrecorded : ∀ {execution}, v.RecordedOn t.deployment execution →
      w.RecordedOn t.deployment execution := by
    rintro execution ⟨key, r, hget, hr⟩
    exact ⟨key, r, (hbefore.agree.get? key).trans hget, hr⟩
  refine ⟨fun key hkey => ?_, fun execution hrunning hended => ?_, ?_⟩
  · rw [hafter.agree.get?, hbefore.agree.get?, h.rows key hkey]
  · rw [hbefore.engine] at hrunning
    rw [hafter.engine] at hended
    exact (h.ended execution hrunning hended).imp_right hrecorded
  · obtain ⟨granted, hstops, hgranted⟩ := h.stops
    rw [hbefore.engine, hafter.engine]
    exact ⟨granted, hstops, fun stop hmem => (hgranted stop hmem).imp_right hrecorded⟩

/-- A world whose store was filled by the writes. -/
def filled (σ : Type) [RecordStore σ] (writes : List RecordStore.Write) (engine : Engine)
    (busy : List String) : World σ :=
  ⟨(RecordStore.run writes RecordStore.empty).2, engine, busy⟩

theorem mirrors_filled {writes : List RecordStore.Write} (hplain : ∀ x ∈ writes, x.Plain)
    (engine : Engine) (busy : List String) :
    Mirrors (filled ByteStore writes engine busy) (filled RecordTable writes engine busy) :=
  ⟨(ByteStore.Represents.empty.run hplain).2.2, rfl, rfl⟩

/-- On a byte store that was filled by writes of plain names a trigger is answered as on a table,
whatever runs and is busy, and keeps to its target. -/
theorem handle_isolated (settings : CoordinatorSettings) {writes : List RecordStore.Write}
    (hplain : ∀ x ∈ writes, x.Plain) (engine : Engine) (busy : List String) (t : Trigger) :
    (((coordinator settings).handle t).run (filled ByteStore writes engine busy)).1 =
        (((coordinator settings).handle t).run (filled RecordTable writes engine busy)).1 ∧
      Isolated t (filled ByteStore writes engine busy)
        (((coordinator settings).handle t).run (filled ByteStore writes engine busy)).2 := by
  have hbefore := mirrors_filled hplain engine busy
  obtain ⟨hanswer, hafter⟩ := (alike_stores settings).handle t _ _ hbefore
  exact ⟨hanswer, (isolated_handle hbefore.store.keyed).mirrors hbefore hafter⟩

/-- A deployed record. -/
def live : Record := .minimal "live" 1 "app" "stack"

/-- Records of two targets built from one object; the name of one begins with that of the other. -/
def neighbours : List RecordStore.Write := [
  .put live,
  .put { Record.minimal "live-blue" 1 "app" "blue" with
    executions := .ofList [("blue", "deploy:blue:1")] },
  .update ⟨"live-blue", 1⟩ (.setPlanStatus "DONE")]

/-- Executions of both targets. -/
def neighbouringEngine : Engine :=
  (({} : Engine).start "deploy" "deploy:blue:1").start "deploy" first.execution

theorem handle_isolated_neighbours :
    (∀ x ∈ neighbours, x.Plain) ∧
      (((coordinator {}).handle first).run (filled ByteStore neighbours neighbouringEngine [])).1 =
        .ok (delivery []) ∧
      Isolated first (filled ByteStore neighbours neighbouringEngine [])
        (((coordinator {}).handle first).run
          (filled ByteStore neighbours neighbouringEngine [])).2 := by
  have hplain : ∀ x ∈ neighbours, x.Plain := by
    simp only [neighbours, List.forall_mem_cons]
    have hlive : Plain "live" := by decide +kernel
    have hblue : Plain "live-blue" := by decide +kernel
    have happ : Plain "app" := by decide +kernel
    exact ⟨⟨happ, hlive⟩, ⟨happ, hblue⟩, trivial, List.forall_mem_nil _⟩
  obtain ⟨hanswer, hisolated⟩ := handle_isolated {} hplain neighbouringEngine [] first
  refine ⟨hplain, hanswer.trans ?_, hisolated⟩
  decide +kernel

/-! ## The separator in a name -/

/-- The record of another target, whose name goes on behind the separator. -/
def behind : Record :=
  { Record.minimal "live\x00blue" 1 "app" "blue" with
    executions := .ofList [("blue", "deploy:blue:1")] }

/-- The rows of both records. -/
def adjoiningRows : SortedMap ByteKey Record :=
  (SortedMap.empty.insert (ByteKey.ofRecord live.key) live).insert
    (ByteKey.ofRecord behind.key) behind

/-- The keys of the rows by object. -/
def adjoiningIndex : SortedMap ByteKey ByteKey :=
  (SortedMap.empty.insert (ByteKey.ofIndex live.object live.key) (ByteKey.ofRecord live.key)).insert
    (ByteKey.ofIndex behind.object behind.key) (ByteKey.ofRecord behind.key)

/-- A byte store with the given rows beside the executions. -/
def adjoining (rows : SortedMap ByteKey Record) : World ByteStore where
  store := ⟨rows.mapValues Record.text, adjoiningIndex⟩
  engine := neighbouringEngine

theorem filled_adjoining :
    filled ByteStore [.put live, .put behind] neighbouringEngine [] = adjoining adjoiningRows :=
  rfl

/-- What registers the execution. -/
def registration : Record.Change := .setExecution "live" first.execution

/-- The rows after the trigger for the one target: both records have the execution. -/
def reachedRows : SortedMap ByteKey Record :=
  (adjoiningRows.insert (ByteKey.ofRecord live.key) (live.apply registration)).insert
    (ByteKey.ofRecord behind.key) (behind.apply registration)

/-- The engine after it: the execution of the other target was stopped. -/
def reachedEngine : Engine :=
  neighbouringEngine.stopped "deploy:blue:1" supersededCause

theorem ofObject_adjoining : RecordStore.ofObject (adjoining adjoiningRows).store "app" "live" =
    .ok [live, behind] := by
  refine (ByteStore.ofObject_of_rows rfl "app" "live").trans (congrArg Except.ok ?_)
  decide +kernel

theorem run_update_adjoining (rows : SortedMap ByteKey Record) (key : RecordKey) {r : Record}
    (h : rows.get? (ByteKey.ofRecord key) = some r) (change : Record.Change) (engine : Engine) :
    ((coordinator {}).askStore ((coordinator {}).collaborators.update key change)).run
        { adjoining rows with engine := engine } =
      (.ok (), { adjoining (rows.insert (ByteKey.ofRecord key) (r.apply change)) with
        engine := engine }) := by
  have hstore : RecordStore.update key change
      ({ adjoining rows with engine := engine } : World ByteStore).store = .ok _ :=
    ByteStore.update_of_mem rfl h change
  exact run_askStore_update_of_ok {} hstore

theorem run_handle_adjoining :
    ((coordinator {}).handle first).run (adjoining adjoiningRows) =
      (.ok (delivery ["deploy:blue:1"]),
        { adjoining reachedRows with engine := reachedEngine }) := by
  have hlookup : ((coordinator {}).lookup first.object first.deployment).run
      (adjoining adjoiningRows) = (.ok live, adjoining adjoiningRows) :=
    (run_lookup {} first _ ofObject_adjoining).trans rfl
  have hadmission : ((coordinator {}).admission first.execution first.workflow
      first.deployment).run (adjoining adjoiningRows) =
        (.ok ["deploy:blue:1"], { adjoining adjoiningRows with engine := reachedEngine }) := by
    have hlatest : RecordStore.latest (adjoining adjoiningRows).store first.deployment
        (CoordinatorSettings.window {}) = .ok [behind, live] := by
      refine (ByteStore.latest_of_rows rfl _ _).trans (congrArg Except.ok ?_)
      decide +kernel
    have hstopped : Engine.stopEach supersededCause
        ((adjoining adjoiningRows).rivalsAmong first [behind, live])
        (adjoining adjoiningRows).engine = (["deploy:blue:1"], reachedEngine) := by
      decide +kernel
    rw [run_admission {} first _ hlatest, hstopped]
  have hrows : ((coordinator {}).askStore ((coordinator {}).collaborators.ofObject
      first.object first.deployment)).run { adjoining adjoiningRows with engine := reachedEngine } =
        (.ok [live, behind], { adjoining adjoiningRows with engine := reachedEngine }) :=
    run_askStore_ofObject_of_ok {} ofObject_adjoining
  have hlive := run_update_adjoining adjoiningRows live.key
    (show _ = some live by decide +kernel) registration reachedEngine
  have hbehind := run_update_adjoining
    (adjoiningRows.insert (ByteKey.ofRecord live.key) (live.apply registration)) behind.key
    (show _ = some behind by decide +kernel) registration reachedEngine
  have hupdate : ((coordinator {}).updateAll registration [live.key, behind.key]).run
      { adjoining adjoiningRows with engine := reachedEngine } =
        (.ok (), { adjoining reachedRows with engine := reachedEngine }) :=
    (run_bind_ok hlive).trans (run_bind_ok hbehind)
  have hregister : ((coordinator {}).register first.execution first.object first.deployment).run
      { adjoining adjoiningRows with engine := reachedEngine } =
        (.ok 2, { adjoining reachedRows with engine := reachedEngine }) := by
    have hchange : Record.Change.setExecution (attemptKey first.execution) first.execution =
        registration := by
      decide
    rw [register, changeRows, hchange, run_bind_ok hrows]
    exact run_bind_ok hupdate
  rw [Coordinator.handle, run_bind_ok hlookup, run_bind_ok hadmission,
    run_bind_ok hregister]
  exact (run_bind_ok (run_abortIfBusy {} first _ live.stack)).trans rfl

/-- A trigger for one target writes to the record of another, whose name goes on behind the
separator, and stops an execution that no record of its own target names. -/
theorem reached_by_separator :
    ∃ w w', w = filled ByteStore [.put live, .put behind] neighbouringEngine [] ∧
      ((coordinator {}).handle first).run w = (.ok (delivery ["deploy:blue:1"]), w') ∧
      behind.deployment ≠ first.deployment ∧
      RecordStore.get? w.store behind.key = .ok (some behind) ∧
      RecordStore.get? w'.store behind.key = .ok (some (behind.apply registration)) ∧
      behind.apply registration ≠ behind ∧
      w.engine.isRunning "deploy:blue:1" = true ∧ w'.engine.isRunning "deploy:blue:1" = false ∧
      ¬ w.RecordedOn first.deployment "deploy:blue:1" := by
  refine ⟨_, _, filled_adjoining.symm, run_handle_adjoining, by decide, ?_, ?_, by decide,
    by decide +kernel, by decide +kernel, ?_⟩
  · refine (ByteStore.get?_of_rows rfl behind.key).trans (congrArg Except.ok ?_)
    decide +kernel
  · refine (ByteStore.get?_of_rows rfl behind.key).trans (congrArg Except.ok ?_)
    decide +kernel
  · rintro ⟨key, r, hget, hdeployment, hvalue⟩
    have hrow : adjoiningRows.get? (ByteKey.ofRecord key) = some r :=
      Except.ok.inj ((ByteStore.get?_of_rows rfl key).symm.trans hget)
    have hothers : ∀ r ∈ adjoiningRows.values, r.deployment = first.deployment →
        "deploy:blue:1" ∉ r.executions.values := by
      decide +kernel
    exact hothers r (SortedMap.mem_values.mpr ⟨_, hrow⟩) hdeployment hvalue

end World

end Rollout
