import Rollout.Proofs.Coordinator.Handling

/-!
# Whom an admission stops

An admission reads the running executions of a workflow and the newest records of a target, and then
requests stops one after the other.  Its effect can be told from the world before it: the stops are
those of the other executions of the workflow that a newest record names, unless they are refused
(`World.Cleared`).  A stop takes away every run of its execution, so an execution that runs several
times is stopped once, at its first place in the list.
-/

namespace Rollout

namespace World

open Coordinator

/-- What the stopped executions and the world after an admission have to do with the world before
it. -/
structure Cleared (window : Nat) (current workflow deployment : String) (w : World RecordTable)
    (stopped : List String) (w' : World RecordTable) : Prop where
  /-- Stopped are the other executions of the workflow that one of the newest records of the target
  names and whose stops are not refused. -/
  peers : ∀ execution, execution ∈ stopped ↔
    execution ∈ w.engine.runningOf workflow ∧ execution ≠ current ∧
      (∃ r, w.store.Recent deployment window r ∧ execution ∈ r.executions.values) ∧
      execution ∉ w.engine.refused
  /-- They stand in the order of their first runs under the workflow, each once. -/
  order : stopped.Pairwise fun a b =>
    (w.engine.runningOf workflow).idxOf a < (w.engine.runningOf workflow).idxOf b
  /-- They are gone from every workflow, and all else keeps its places. -/
  running : ∀ other, w'.engine.runningOf other = (w.engine.runningOf other).filter (· ∉ stopped)
  stops : w'.engine.stops = w.engine.stops ++ stopped.map (Stop.mk · supersededCause)
  refused : w'.engine.refused = w.engine.refused
  store : w'.store = w.store
  busy : w'.busy = w.busy

/-- The rivals of a trigger, told by the newest records. -/
theorem mem_rivals_iff {settings : CoordinatorSettings} {t : Trigger} {w : World RecordTable}
    (hkeyed : w.store.Keyed) {execution : String} :
    execution ∈ w.rivals settings t ↔
      execution ∈ w.engine.runningOf t.workflow ∧ execution ≠ t.execution ∧
        ∃ r, w.store.Recent t.deployment settings.window r ∧ execution ∈ r.executions.values := by
  simp only [mem_rivals, hkeyed.mem_latest_iff]

/-- The executions that a trigger supersedes, told by the newest records. -/
theorem mem_superseded_iff {settings : CoordinatorSettings} {t : Trigger} {w : World RecordTable}
    (hkeyed : w.store.Keyed) {execution : String} :
    execution ∈ w.superseded settings t ↔
      execution ∈ w.engine.runningOf t.workflow ∧ execution ≠ t.execution ∧
        (∃ r, w.store.Recent t.deployment settings.window r ∧ execution ∈ r.executions.values) ∧
        execution ∉ w.engine.refused := by
  rw [mem_superseded, mem_rivals_iff hkeyed, Engine.Stoppable]
  constructor
  · rintro ⟨⟨hmem, hother, hrecent⟩, hgranted, _⟩
    exact ⟨hmem, hother, hrecent, hgranted⟩
  · rintro ⟨hmem, hother, hrecent, hgranted⟩
    exact ⟨⟨hmem, hother, hrecent⟩, hgranted, Engine.isRunning_iff.mpr ⟨_, hmem⟩⟩

/-- Superseded executions stand in the order of their first runs. -/
theorem pairwise_superseded (settings : CoordinatorSettings) (t : Trigger)
    (w : World RecordTable) :
    (w.superseded settings t).Pairwise fun a b =>
      (w.engine.runningOf t.workflow).idxOf a < (w.engine.runningOf t.workflow).idxOf b := by
  rw [superseded, rivals, List.filter_filter]
  exact Engine.pairwise_stopEach _ _ _ _

/-- An admission succeeds and stops exactly the peers of its execution. -/
theorem admission_stops_peers (settings : CoordinatorSettings)
    (current workflow deployment : String) (w : World RecordTable) (hkeyed : w.store.Keyed) :
    ∃ stopped w',
      ((coordinator settings).admission current workflow deployment).run w = (.ok stopped, w') ∧
        Cleared settings.window current workflow deployment w stopped w' := by
  -- Admission does not look at the object of a trigger.
  let t : Trigger := ⟨current, workflow, "", deployment⟩
  refine ⟨w.superseded settings t, w.admitted settings t, run_admission settings t w rfl, {
    peers := fun _ => mem_superseded_iff hkeyed
    order := pairwise_superseded settings t w
    running := fun other => Engine.runningOf_stopEach _ other _ _
    stops := Engine.stops_stopEach _ _ _
    refused := Engine.refused_stopEach _ _ _
    store := rfl
    busy := rfl }⟩

/-! ## A crowded workflow -/

/-- The three records of a target name four executions, that of the template row among them, and a
record of another target names a fifth.  One of the five runs three times. -/
def crowded : World RecordTable where
  store := .ofList [
    { Record.minimal "live" 0 "app" "stack" with
      executions := .ofList [("old", "deploy:old:1")] },
    { Record.minimal "live" 4 "app" "stack" with
      executions := .ofList [("one", "deploy:one:1"), ("two", "deploy:two:1")] },
    { Record.minimal "live" 9 "site" "stack" with
      executions := .ofList [("three", "deploy:three:1")] },
    { Record.minimal "test" 9 "app" "stack" with
      executions := .ofList [("apart", "deploy:apart:1")] }]
  engine :=
    let runs := ["deploy:three:1", "deploy:old:1", "deploy:one:1", "deploy:apart:1",
      "deploy:one:1", "deploy:two:1", "deploy:new:1"]
    let started := runs.foldl (Engine.start · "deploy") {}
    (started.start "repair" "deploy:one:1").refuseStops "deploy:two:1"

/-- Of a crowded workflow two executions are stopped.  One has its stop refused, one is named by a
record of another target and one by a record outside the window. -/
theorem admission_stops_peers_crowded :
    crowded.store.Keyed ∧
      ∃ w', ((coordinator { window := 2 }).admission "deploy:new:1" "deploy" "live").run crowded =
          (.ok ["deploy:three:1", "deploy:one:1"], w') ∧
        Cleared 2 "deploy:new:1" "deploy" "live" crowded ["deploy:three:1", "deploy:one:1"] w' := by
  have hkeyed : crowded.store.Keyed := RecordTable.keyed_ofList _
  obtain ⟨stopped, w', hrun, hcleared⟩ :=
    admission_stops_peers { window := 2 } "deploy:new:1" "deploy" "live" crowded hkeyed
  have hanswer : (((coordinator { window := 2 }).admission "deploy:new:1" "deploy" "live").run
      crowded).1 = .ok ["deploy:three:1", "deploy:one:1"] := by decide +kernel
  rw [hrun] at hanswer
  obtain rfl := Except.ok.inj hanswer
  exact ⟨hkeyed, w', hrun, hcleared⟩

end World

end Rollout
