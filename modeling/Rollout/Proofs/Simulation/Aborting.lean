import Rollout.Proofs.Coordinator.Outcomes
import Rollout.Proofs.Simulation.Stages

/-!
# Triggers that fail

A trigger is not a transaction: its stages change the engine and the store one after the other, and a
failure ends it between two changes.  `Simulation.Aborted` tells by the stage that failed what was
left behind: nothing by the lookup and the admission, the stops of a whole admission by the stages
after them, with the oldest of the rows by a registration and with all of them by the probe.

Whether a trigger fails is told by the verdicts of its stages (`Simulation.ends_handle`).  Admission
and registration are not best effort: where the lookup and the probe succeed, a failure of either ends
the trigger all the same (`Simulation.handle_of_advisory`).  Failures of stops never do.
-/

namespace Rollout

namespace Simulation

open Coordinator RecordStore

variable {σ : Type} [RecordStore σ] [Tabular σ]

/-! ## What is left behind -/

/-- What a trigger left behind that failed after its admission: the superseded executions were
stopped, and the given rows record the execution. -/
structure LeftBehind (settings : CoordinatorSettings) (t : Trigger) (table : RecordTable)
    (s : Simulation σ) (superseded : List String) (written : List Record) (s' : Simulation σ) :
    Prop where
  /-- The rows record the execution under its attempt key; they are the same otherwise, and so are
  all other rows. -/
  rows : ∃ left, Tabular.Holds s'.world.store left ∧
    ∀ key, left.records.get? key = (table.records.get? key).map fun r =>
      if r ∈ written then
        { r with executions := r.executions.insert (attemptKey t.execution) t.execution }
      else r
  /-- The stop of each rival was requested, and no other stop. -/
  requested : s'.requested = s.requested ++
    (s.world.rivalsAmong t (table.latest t.deployment settings.window)).map
      (Stop.mk · supersededCause)
  superseded_sublist :
    superseded.Sublist (s.world.rivalsAmong t (table.latest t.deployment settings.window))
  /-- Stopped are the superseded executions, unless a stop took effect that was reported to have
  failed. -/
  engine : (∀ fault ∈ s.faults.stop, fault.landed = false) →
    Engine.stopEach supersededCause superseded s.world.engine = (superseded, s'.world.engine)
  busy : s'.world.busy = s.world.busy

/-- How far a trigger came that failed. -/
inductive Aborted (settings : CoordinatorSettings) (t : Trigger) (table : RecordTable)
    (s : Simulation σ) (e : CoordinatorError) (s' : Simulation σ) : Prop
  | lookup : ((coordinator settings).lookup t.object t.deployment).run s = (.error e, s') →
      Untouched s s' → Aborted settings t table s e s'
  | admission {r s₁} :
      ((coordinator settings).lookup t.object t.deployment).run s = (.ok r, s₁) →
      ((coordinator settings).admission t.execution t.workflow t.deployment).run s₁ =
        (.error e, s') →
      Untouched s s' → Aborted settings t table s e s'
  | registration {r s₁ superseded s₂ written} :
      ((coordinator settings).lookup t.object t.deployment).run s = (.ok r, s₁) →
      ((coordinator settings).admission t.execution t.workflow t.deployment).run s₁ =
        (.ok superseded, s₂) →
      ((coordinator settings).register t.execution t.object t.deployment).run s₂ = (.error e, s') →
      written <+: table.ofObject t.object t.deployment →
      LeftBehind settings t table s superseded written s' → Aborted settings t table s e s'
  | probe {r s₁ superseded s₂ count s₃} :
      ((coordinator settings).lookup t.object t.deployment).run s = (.ok r, s₁) →
      ((coordinator settings).admission t.execution t.workflow t.deployment).run s₁ =
        (.ok superseded, s₂) →
      ((coordinator settings).register t.execution t.object t.deployment).run s₂ =
        (.ok count, s₃) →
      ((coordinator settings).abortIfBusy r.stack t.execution).run s₃ = (.error e, s') →
      LeftBehind settings t table s superseded (table.ofObject t.object t.deployment) s' →
      Aborted settings t table s e s'

section Aborted

variable {settings : CoordinatorSettings} {t : Trigger} {table : RecordTable}
  {s s₁ s₂ s' : Simulation σ}

/-- A registration behind an admission behind a lookup. -/
theorem Admits.leftBehind {superseded : List String} {written : List Record}
    {left : List (Fault StoreError)}
    (hled : Led s [] s.world { s.faults with ofObject := left } s₁)
    (hadmits : Admits s₁ (s₁.world.rivalsAmong t (table.latest t.deployment settings.window))
      superseded s₂)
    (hregisters : Registers s₂ table (.setExecution (attemptKey t.execution) t.execution)
      written s') :
    LeftBehind settings t table s superseded written s' where
  rows := ⟨_, hregisters.store, RecordTable.get?_changeAmong written _ table⟩
  requested := by rw [hregisters.requested, hadmits.requested, hled.requested, hled.world,
    List.append_nil]
  superseded_sublist := hled.world ▸ hadmits.sublist
  engine := by
    intro hlost
    have hstops := hadmits.engine (by rw [hled.faults]; exact hlost)
    rwa [hled.world, ← hregisters.engine] at hstops
  busy := by rw [hregisters.busy, hadmits.busy, hled.world]

/-- What was left behind stays so when nothing more is touched. -/
theorem LeftBehind.untouched {superseded : List String} {written : List Record}
    (h : LeftBehind settings t table s superseded written s₂) (huntouched : Untouched s₂ s') :
    LeftBehind settings t table s superseded written s' where
  rows := by rw [huntouched.world]; exact h.rows
  requested := huntouched.requested.trans h.requested
  superseded_sublist := h.superseded_sublist
  engine := by rw [huntouched.world]; exact h.engine
  busy := by rw [huntouched.world]; exact h.busy

/-- A trigger that failed requested no stop of its own execution. -/
theorem Aborted.requested {e : CoordinatorError} (h : Aborted settings t table s e s') :
    ∃ made, s'.requested = s.requested ++ made ∧ ∀ stop ∈ made, stop.execution ≠ t.execution := by
  have hnone : s'.requested = s.requested → ∃ made, s'.requested = s.requested ++ made ∧
      ∀ stop ∈ made, stop.execution ≠ t.execution :=
    fun hsame => ⟨[], by rw [hsame, List.append_nil], fun _ hmem => nomatch hmem⟩
  have hrivals : ∀ {superseded written}, LeftBehind settings t table s superseded written s' →
      ∃ made, s'.requested = s.requested ++ made ∧
        ∀ stop ∈ made, stop.execution ≠ t.execution := by
    intro superseded written hleft
    refine ⟨_, hleft.requested, fun stop hmem => ?_⟩
    obtain ⟨rival, hrival, rfl⟩ := List.mem_map.mp hmem
    rw [World.rivalsAmong, List.mem_filter, List.mem_filter] at hrival
    exact bne_iff_ne.mp hrival.1.2
  cases h with
  | lookup _ huntouched => exact hnone huntouched.requested
  | admission _ _ huntouched => exact hnone huntouched.requested
  | registration _ _ _ _ hleft => exact hrivals hleft
  | probe _ _ _ _ hleft => exact hrivals hleft

end Aborted

/-! ## Triggers -/

section Triggers

variable [Steady σ] (settings : CoordinatorSettings) (t : Trigger) {s : Simulation σ}
  {table : RecordTable}

/-- A trigger ends as the faults say.  If it succeeds its outcome names the attempt and tells whether
the target of the attempt is busy. -/
theorem ends_handle (h : Tabular.Holds s.world.store table) :
    Ends (fun r o _ => o.record = r.key ∧
        o.phase = if s.world.isBusy r.stack then .selfAborted else .proceeding)
      (Aborted settings t table s)
      (s.faults.trigger settings.retry t table (s.world.alone t))
      (((coordinator settings).handle t).run s) := by
  refine (ends_lookup settings t h).bind (fun _ _ => .lookup) ?_
  rintro ⟨_, left⟩ r s₁ hlookup ⟨rfl, hled⟩
  have hheld : Tabular.Holds s₁.world.store table := by rwa [hled.world]
  have hadmission := ends_admission settings t hheld
  have hfaults : ∀ alone, s₁.faults.admission settings.retry alone =
      s.faults.admission settings.retry alone := by
    intro alone
    rw [hled.faults]
    rfl
  rw [hled.world, hfaults] at hadmission
  refine hadmission.bind
    (fun _ _ hrun huntouched => .admission hlookup hrun (huntouched.behind hled)) ?_
  rintro - superseded s₂ hadmission hadmits
  rw [← hled.world] at hadmits
  have hstored : Tabular.Holds s₂.world.store table := by rwa [hadmits.store]
  have hregistration := ends_changeRows settings hstored t.object t.deployment
    (.setExecution (attemptKey t.execution) t.execution)
  have hleft : s₂.faults.ofObject = left := by rw [hadmits.ofObject, hled.faults]
  have hupdate : s₂.faults.update = s.faults.update := by rw [hadmits.update, hled.faults]
  rw [hleft, Faults.registration, hupdate, ← Faults.registration] at hregistration
  refine hregistration.bind ?_ ?_
  · rintro e s' hrun ⟨written, hwritten, hregisters⟩
    exact .registration hlookup hadmission hrun hwritten (hadmits.leftBehind hled hregisters)
  rintro - count s₃ hregister ⟨hregisters, hisBusy⟩
  have hleftBehind := hadmits.leftBehind hled hregisters
  have hprobe := ends_abortIfBusy settings r.stack t.execution s₃
  have hfaults : s₃.faults.probe settings.retry = s.faults.probe settings.retry := by
    rw [Faults.probe, Faults.probe, hisBusy, hadmits.isBusy, hled.faults]
  have hbusy : s₃.world.isBusy r.stack = s.world.isBusy r.stack := by
    rw [World.isBusy, World.isBusy, hleftBehind.busy]
  rw [hfaults, hbusy] at hprobe
  refine hprobe.bind ?_ ?_
  · rintro e s' hrun huntouched
    exact .probe hlookup hadmission hregister hrun (hleftBehind.untouched huntouched)
  · rintro - phase s' - rfl
    exact .done ⟨rfl, rfl⟩

/-- A trigger that fails leaves behind what the stages before the failing one did, and the rows that
a failing registration wrote are the oldest ones.  It has requested no stop of its own execution, and
it fails of the same whatever becomes of stops. -/
theorem handle_aborted {s' : Simulation σ} {e : CoordinatorError}
    (h : Tabular.Holds s.world.store table)
    (hrun : ((coordinator settings).handle t).run s = (.error e, s')) :
    Aborted settings t table s e s' ∧
      (table.ofObject t.object t.deployment).Pairwise (fun r r' => r.time < r'.time) ∧
      (∃ made, s'.requested = s.requested ++ made ∧ ∀ stop ∈ made, stop.execution ≠ t.execution) ∧
      ∀ stops, ∃ s'', ((coordinator settings).handle t).run
        { s with faults := { s.faults with stop := stops } } = (.error e, s'') := by
  have hends := ends_handle settings t h
  rw [hrun] at hends
  obtain ⟨hverdict, haborted⟩ := hends.verdict_of_error
  refine ⟨haborted, (Tabular.keyed h).pairwise_ofObject _ _, haborted.requested, fun stops => ?_⟩
  have hother := ends_handle settings t
    (s := { s with faults := { s.faults with stop := stops } }) h
  rw [Faults.trigger_stop, hverdict] at hother
  obtain ⟨s'', hrun', -⟩ := hother.of_error
  exact ⟨s'', hrun'⟩

end Triggers

/-! ## A registration that breaks off -/

/-- The contested world where the first stop times out, and so do all attempts to change the second
row. -/
def interrupted : Simulation RecordTable where
  world := World.contested
  faults := {
    stop := [{ error := some .timeout }]
    update := [{}, { error := some .timeout }, { error := some (.backend "throttled") },
      { delay := 40000 }, { error := some .timeout }] }

/-- The template row is written and the attempt is not. -/
theorem handle_aborted_interrupted :
    ∃ s', World.contested.store.Keyed ∧
      ((coordinator {}).handle World.third).run interrupted = (.error (.store .timeout), s') ∧
      Aborted {} World.third World.contested.store interrupted (.store .timeout) s' ∧
      s'.requested = [⟨"deploy:one:1", supersededCause⟩, ⟨"deploy:two:1", supersededCause⟩,
        ⟨"deploy:one:1", supersededCause⟩] ∧
      s'.world.engine.stops = [⟨"deploy:one:1", supersededCause⟩] ∧
      s'.world.store.records.get? ⟨"live", 0⟩ = some { Record.minimal "live" 0 "app" "stack" with
        executions := .ofList [("three", "deploy:three:1")] } ∧
      s'.world.store.records.get? ⟨"live", 4⟩ = some World.contestedAttempt := by
  have hkeyed : World.contested.store.Keyed := RecordTable.keyed_ofList _
  have hholds : Tabular.Holds interrupted.world.store World.contested.store := ⟨rfl, hkeyed⟩
  have haborted : ∀ s', ((coordinator {}).handle World.third).run interrupted =
      (.error (.store .timeout), s') →
      Aborted {} World.third World.contested.store interrupted (.store .timeout) s' :=
    fun s' hrun => (handle_aborted {} World.third hholds hrun).1
  have hanswer : (((coordinator {}).handle World.third).run interrupted).1 =
      .error (.store .timeout) := by decide +kernel
  have hrequested : (((coordinator {}).handle World.third).run interrupted).2.requested =
      [⟨"deploy:one:1", supersededCause⟩, ⟨"deploy:two:1", supersededCause⟩,
        ⟨"deploy:one:1", supersededCause⟩] := by decide +kernel
  have hstops : (((coordinator {}).handle World.third).run interrupted).2.world.engine.stops =
      [⟨"deploy:one:1", supersededCause⟩] := by decide +kernel
  have htemplate : (((coordinator {}).handle World.third).run
      interrupted).2.world.store.records.get? ⟨"live", 0⟩ =
        some { Record.minimal "live" 0 "app" "stack" with
          executions := .ofList [("three", "deploy:three:1")] } := by decide +kernel
  have hattempt : (((coordinator {}).handle World.third).run
      interrupted).2.world.store.records.get? ⟨"live", 4⟩ = some World.contestedAttempt := by
    decide +kernel
  -- The facts are about one run, which must not be computed again to put them together.
  generalize ((coordinator {}).handle World.third).run interrupted = result at *
  have hrun : result = (.error (.store .timeout), result.2) := Prod.ext hanswer rfl
  exact ⟨result.2, hkeyed, hrun, haborted _ hrun, hrequested, hstops, htemplate, hattempt⟩

/-! ## Stages that are not best effort -/

/-- Where a trigger finds an attempt and the probe answers, it comes to its outcome unless admission
or registration fails.  A failure of either ends it. -/
theorem handle_of_advisory [Steady σ] (settings : CoordinatorSettings) (t : Trigger)
    {s : Simulation σ} {table : RecordTable} (h : Tabular.Holds s.world.store table)
    (hattempt : ∃ r ∈ table.ofObject t.object t.deployment, r.isTemplate = false)
    {left : List (Fault StoreError)} {rest : List (Fault ControlError)}
    (hlookup : Fault.endure settings.retry s.faults.ofObject = .ok left)
    (hprobe : Fault.endure settings.retry s.faults.isBusy = .ok rest) :
    ∃ r, (table.ofObject t.object t.deployment).find? (fun r => !r.isTemplate) = some r ∧
      (s.faults.advisory settings.retry t table (s.world.alone t) left = .ok () →
        ∃ o s', ((coordinator settings).handle t).run s = (.ok o, s') ∧ o.record = r.key ∧
          o.phase = if s.world.isBusy r.stack then .selfAborted else .proceeding) ∧
      ∀ e, s.faults.advisory settings.retry t table (s.world.alone t) left = .error e →
        ∃ s', ((coordinator settings).handle t).run s = (.error e, s') := by
  obtain ⟨other, hother, htemplate⟩ := hattempt
  cases hfind : (table.ofObject t.object t.deployment).find? fun r => !r.isTemplate with
  | none =>
    have hnone := List.find?_eq_none.mp hfind other hother
    rw [htemplate] at hnone
    exact absurd rfl hnone
  | some r =>
    have hends := ends_handle settings t h
    rw [Faults.trigger_eq hlookup hfind hprobe] at hends
    refine ⟨r, rfl, fun hverdict => ?_, fun e hverdict => ?_⟩
    · rw [hverdict] at hends
      exact hends.of_ok
    · rw [hverdict] at hends
      obtain ⟨s', hrun, -⟩ := hends.of_error
      exact ⟨s', hrun⟩

/-- The contested world where some calls of each stage fail and get through. -/
def rough : Simulation RecordTable where
  world := World.contested
  faults := {
    ofObject := [{ error := some (.backend "throttled") }]
    update := [{}, { error := some .timeout }]
    runningOf := [{ error := some (.unavailable "throttled") }]
    stop := [{ error := some .timeout }]
    isBusy := [{ delay := 40000 }] }

theorem handle_of_advisory_rough :
    (∃ r ∈ World.contested.store.ofObject "app" "live", r.isTemplate = false) ∧
      Fault.endure {} rough.faults.ofObject = .ok [] ∧
      Fault.endure {} rough.faults.isBusy = .ok [] ∧
      ∃ o s', ((coordinator {}).handle World.third).run rough = (.ok o, s') ∧
        o.record = ⟨"live", 4⟩ ∧ o.phase = .selfAborted := by
  have hkeyed : World.contested.store.Keyed := RecordTable.keyed_ofList _
  have hattempt : ∃ r ∈ World.contested.store.ofObject "app" "live", r.isTemplate = false := by
    decide +kernel
  have hlookup : Fault.endure {} rough.faults.ofObject = .ok [] := rfl
  have hprobe : Fault.endure {} rough.faults.isBusy = .ok [] := rfl
  have hadvisory : rough.faults.advisory {} World.third World.contested.store
      (World.contested.alone World.third) [] = .ok () := by decide +kernel
  have hholds : Tabular.Holds rough.world.store World.contested.store := ⟨rfl, hkeyed⟩
  obtain ⟨r, hfind, hsucceeds, -⟩ := handle_of_advisory {} World.third hholds hattempt hlookup hprobe
  have hfirst : (World.contested.store.ofObject "app" "live").find? (fun r => !r.isTemplate) =
      some World.contestedAttempt := by decide +kernel
  obtain rfl : r = World.contestedAttempt := Option.some.inj (hfind.symm.trans hfirst)
  obtain ⟨o, s', hrun, hrecord, hphase⟩ := hsucceeds hadvisory
  exact ⟨hattempt, hlookup, hprobe, o, s', hrun, hrecord, hphase⟩

/-- A target with one attempt, of which an execution runs, while the engine refuses to list what
runs. -/
def unlisted : Simulation RecordTable where
  world := {
    store := .ofList [.minimal "live" 1 "app" "stack"]
    engine := ({} : Engine).start "deploy" "deploy:live:1" }
  faults := { runningOf := [{ error := some (.rejected "denied") }] }

/-- The lookup finds the attempt and the probe answers, and still the trigger fails of its admission
and leaves the execution unregistered. -/
theorem fails_of_admission :
    (∃ r ∈ unlisted.world.store.ofObject "app" "live", r.isTemplate = false) ∧
      Fault.endure {} unlisted.faults.ofObject = .ok [] ∧
      Fault.endure {} unlisted.faults.isBusy = .ok [] ∧
      (((coordinator {}).handle ⟨"deploy:live:1", "deploy", "app", "live"⟩).run unlisted).1 =
        .error (.control (.rejected "denied")) ∧
      (((coordinator {}).handle ⟨"deploy:live:1", "deploy", "app", "live"⟩).run
        unlisted).2.world = unlisted.world := by
  refine ⟨by decide +kernel, rfl, rfl, by decide +kernel, by decide +kernel⟩

end Simulation

end Rollout
