import Rollout.Proofs.Coordinator.Matching
import Rollout.Proofs.Coordinator.Outcomes
import Rollout.Proofs.Simulation.Retrying

/-!
# Faults that pass

The faults of a lane pass if no call meets more failures in a row than it has retries, and all of
them transient (`Fault.Pass`).  A failed attempt may have taken effect.

Where the faults of all retried calls pass, nobody can tell: a simulation is in step with the one
that has the same world and meets no faults but those of stops, which are not retried
(`Simulation.inStep_calmed`).  So the operations of a coordinator have the same answers, worlds and
requested stops in both (`Simulation.undisturbed_of_bearable`).  That a call may take effect more
than once does no harm to a steady store.
-/

namespace Rollout

namespace Fault

variable {ε : Type} [Transient ε]

/-- Calls get through the faults ahead, the first with some retries left, the others with all of
them. -/
inductive Pass (p : RetryPolicy) : (left : Nat) → List (Fault ε) → Prop
  | nil {left : Nat} : Pass p left []
  | through {left : Nat} {f : Fault ε} {rest : List (Fault ε)} : f.failure? p = none →
      Pass p p.maxRetries.toNat rest → Pass p left (f :: rest)
  | retried {left : Nat} {f : Fault ε} {rest : List (Fault ε)} {e : ε} : f.failure? p = some e →
      Transient.isTransient e = true → Pass p left rest → Pass p (left + 1) (f :: rest)

theorem failure?_default (p : RetryPolicy) : failure? p ({} : Fault ε) = none := by
  rw [failure?, overruns_default, if_neg Bool.false_ne_true]

theorem endureFrom_nil (p : RetryPolicy) (left : Nat) :
    endureFrom p left ([] : List (Fault ε)) = .ok [] := by
  cases left <;> rw [endureFrom, List.headD_nil, failure?_default, List.tail_nil]

theorem endureFrom_cons_through {p : RetryPolicy} {f : Fault ε} (h : f.failure? p = none)
    (left : Nat) (rest : List (Fault ε)) : endureFrom p left (f :: rest) = .ok rest := by
  cases left <;> rw [endureFrom, List.headD_cons, h, List.tail_cons]

/-- A call gets through faults that pass and leaves faults that pass. -/
theorem Pass.endureFrom {p : RetryPolicy} {left : Nat} {faults : List (Fault ε)}
    (h : Pass p left faults) :
    ∃ rest, Fault.endureFrom p left faults = .ok rest ∧ Pass p p.maxRetries.toNat rest := by
  induction h with
  | nil => exact ⟨[], endureFrom_nil p _, .nil⟩
  | through hfailure hrest _ => exact ⟨_, endureFrom_cons_through hfailure _ _, hrest⟩
  | retried hfailure htransient _ ih =>
    obtain ⟨rest, hendure, hrest⟩ := ih
    refine ⟨rest, ?_, hrest⟩
    rw [Fault.endureFrom, List.headD_cons, hfailure, List.tail_cons]
    dsimp only
    rw [if_pos htransient, hendure]

end Fault

/-- The faults of all retried calls pass. -/
structure Faults.Bearable (p : RetryPolicy) (faults : Faults) : Prop where
  ofObject : Fault.Pass p p.maxRetries.toNat faults.ofObject
  ofDeployment : Fault.Pass p p.maxRetries.toNat faults.ofDeployment
  latest : Fault.Pass p p.maxRetries.toNat faults.latest
  update : Fault.Pass p p.maxRetries.toNat faults.update
  runningOf : Fault.Pass p p.maxRetries.toNat faults.runningOf
  isBusy : Fault.Pass p p.maxRetries.toNat faults.isBusy

/-- Bearable faults pass in a lane and stay bearable behind it. -/
structure Lane.Bears {ε : Type} [Transient ε] (p : RetryPolicy) (lane : Lane ε) : Prop where
  pass : ∀ {faults : Faults}, faults.Bearable p → Fault.Pass p p.maxRetries.toNat (lane.ahead faults)
  replace : ∀ {faults : Faults} {rest}, faults.Bearable p → Fault.Pass p p.maxRetries.toNat rest →
    (lane.replace faults rest).Bearable p

namespace Simulation

variable {σ α ε : Type}

/-- The simulation whose retried calls meet no faults. -/
def calmed (s : Simulation σ) : Simulation σ := { s with faults := { stop := s.faults.stop } }

/-- A simulation with bearable faults beside one that meets only the same faults of stops. -/
structure Calms (p : RetryPolicy) (s calm : Simulation σ) : Prop where
  world : s.world = calm.world
  requested : s.requested = calm.requested
  bearable : s.faults.Bearable p
  faults : calm.faults = { stop := s.faults.stop }

theorem calms_calmed {p : RetryPolicy} {s : Simulation σ} (h : s.faults.Bearable p) :
    Calms p s s.calmed :=
  ⟨rfl, rfl, h, rfl⟩

/-! ## Calls -/

/-- An attempt that meets the same fault in both simulations comes to the same. -/
theorem Calms.attempt {p : RetryPolicy} {s calm : Simulation σ} (h : Calms p s calm)
    (call : LoggedCall) {ahead calmAhead : Faults} (hahead : ahead.Bearable p)
    (hcalm : calmAhead = { stop := ahead.stop }) (fault : Fault ε)
    (effect : World σ → Except ε α × World σ) :
    (s.attempt call ahead fault effect).1 = (calm.attempt call calmAhead fault effect).1 ∧
      Calms p (s.attempt call ahead fault effect).2
        (calm.attempt call calmAhead fault effect).2 := by
  have hlog : (s.log ++ [call]).filterMap LoggedCall.stop? =
      (calm.log ++ [call]).filterMap LoggedCall.stop? := by
    rw [List.filterMap_append, List.filterMap_append]
    exact congrArg (· ++ _) h.requested
  rw [Simulation.attempt, Simulation.attempt, Simulation.left, Simulation.left, ← h.world]
  cases fault.error <;> exact ⟨rfl, rfl, hlog, hahead, hcalm⟩

section Lanes

variable [Transient ε] {p : RetryPolicy} {lane : Lane ε}

/-- A call that comes out as its faults do is not disturbed by bearable ones. -/
theorem matches_of_comes {ε' : Type} {word : ε → ε'} {x : StateM (Simulation σ) (Except ε' α)}
    (effect : World σ → Except ε' α × World σ) (hlane : lane.Bears p)
    (hcomes : ∀ s, Comes s lane word (effect s.world).1 (effect s.world).2
      (Fault.endure p (lane.ahead s.faults)) (x s)) :
    Matches (Calms p) x x := by
  intro s calm h
  obtain ⟨rest, hendure, hrest⟩ := (hlane.pass h.bearable).endureFrom
  have hs := hcomes s
  have hcalm := hcomes calm
  rw [Fault.endure, hendure] at hs
  rw [h.faults, lane.ahead_stops, Fault.endure, Fault.endureFrom_nil, ← h.world] at hcalm
  generalize x s = result at hs ⊢
  generalize x calm = calmResult at hcalm ⊢
  cases hs with
  | through hled =>
  cases hcalm with
  | through hled' =>
    refine ⟨rfl, hled.world.trans hled'.world.symm, ?_, ?_, ?_⟩
    · rw [hled.requested, hled'.requested, h.requested]
    · rw [hled.faults]
      exact hlane.replace h.bearable hrest
    · rw [hled'.faults, h.faults, lane.replace_stops, hled.faults, lane.stop_replace]

end Lanes

section Coordinators

variable [RecordStore σ] (settings : CoordinatorSettings)

/-- Calls of the store that may be repeated are not disturbed. -/
theorem matches_askStore {call : Call (Simulation σ) StoreError α} {lane : Lane StoreError}
    {word : StoreError → StoreError} {effect : World σ → Except StoreError α × World σ}
    (hmeets : Meets call lane word effect) (hlane : lane.Bears settings.retry)
    (hsettled : ∀ s : Simulation σ, Settled effect s (effect s.world).1 (effect s.world).2) :
    Matches (Calms settings.retry) ((coordinator settings).askStore call).run
      ((coordinator settings).askStore call).run :=
  matches_of_comes (fun w => ((effect w).1.mapError .store, (effect w).2)) hlane fun s =>
    comes_askStore settings hmeets (hsettled s)

/-- Nor are those of the engine and the probe. -/
theorem matches_askControl {call : Call (Simulation σ) ControlError α} {lane : Lane ControlError}
    {word : ControlError → ControlError} {effect : World σ → Except ControlError α × World σ}
    (hmeets : Meets call lane word effect) (hlane : lane.Bears settings.retry)
    (hsettled : ∀ s : Simulation σ, Settled effect s (effect s.world).1 (effect s.world).2) :
    Matches (Calms settings.retry) ((coordinator settings).askControl call).run
      ((coordinator settings).askControl call).run :=
  matches_of_comes (fun w => ((effect w).1.mapError .control, (effect w).2)) hlane fun s =>
    comes_askControl settings hmeets (hsettled s)

/-- Stops are not retried, so they meet the same faults in both simulations. -/
theorem matches_stop_calms (p : RetryPolicy) (execution cause : String) :
    Matches (Calms p) ((collaborators : Collaborators (Simulation σ)).stop execution cause)
      ((collaborators : Collaborators (Simulation σ)).stop execution cause) := by
  intro s calm h
  have hstop : calm.faults.stop = s.faults.stop := by rw [h.faults]
  have hrun : ∀ s : Simulation σ,
      (collaborators : Collaborators (Simulation σ)).stop execution cause s =
        s.attempt (.stop execution cause) { s.faults with stop := s.faults.stop.tail }
          (s.faults.stop.headD {}) (World.stop execution cause) := fun _ => rfl
  rw [hrun, hrun, hstop]
  have hahead : ({ s.faults with stop := s.faults.stop.tail } : Faults).Bearable p :=
    { h.bearable with }
  have hcalm : ({ calm.faults with stop := s.faults.stop.tail } : Faults) =
      { stop := s.faults.stop.tail } := by rw [h.faults]
  exact h.attempt _ hahead hcalm _ _

/-- A simulation of a steady store whose faults are bearable is in step with the one without
them. -/
theorem inStep_calmed [RecordStore.Steady σ] :
    Coordinator.InStep (Calms settings.retry) (coordinator settings : Coordinator (Simulation σ))
      (coordinator settings) where
  window := rfl
  ofObject object deployment :=
    matches_askStore settings (meets_ofObject object deployment)
      ⟨fun h => h.ofObject, fun h hrest => { h with ofObject := hrest }⟩
      fun _ => settled_read fun _ => RecordStore.Steady.ofObject
  latest deployment count :=
    matches_askStore settings (meets_latest deployment count)
      ⟨fun h => h.latest, fun h hrest => { h with latest := hrest }⟩
      fun _ => settled_read fun _ => RecordStore.Steady.latest
  update key change :=
    matches_askStore settings (meets_update key change)
      ⟨fun h => h.update, fun h hrest => { h with update := hrest }⟩
      (settled_update key change)
  runningOf workflow :=
    matches_askControl settings (meets_runningOf workflow)
      ⟨fun h => h.runningOf, fun h hrest => { h with runningOf := hrest }⟩
      fun _ => settled_read fun _ h => nomatch h
  stop execution cause := matches_stop_calms settings.retry execution cause
  isBusy target :=
    matches_askControl settings (meets_isBusy target)
      ⟨fun h => h.isBusy, fun h hrest => { h with isBusy := hrest }⟩
      fun _ => settled_read fun _ h => nomatch h

theorem matches_findByExecution [RecordStore.Steady σ] (execution deployment : String) :
    Matches (Calms settings.retry)
      ((coordinator settings : Coordinator (Simulation σ)).findByExecution execution deployment).run
      ((coordinator settings).findByExecution execution deployment).run := by
  have hrecords := matches_askStore (σ := σ) settings (meets_ofDeployment deployment)
    ⟨fun h => h.ofDeployment, fun h hrest => { h with ofDeployment := hrest }⟩
    fun _ => settled_read fun _ => RecordStore.Steady.ofDeployment
  refine hrecords.coordinating fun records => ?_
  split <;> exact matches_pure _

/-! ## Operations -/

omit [RecordStore σ] in
/-- A program that comes to the same with the faults of retried calls and without. -/
def Undisturbed (x : Coordinating (Simulation σ) α) (s : Simulation σ) : Prop :=
  (x.run s).1 = (x.run s.calmed).1 ∧ (x.run s).2.world = (x.run s.calmed).2.world ∧
    (x.run s).2.requested = (x.run s.calmed).2.requested

omit [RecordStore σ] in
theorem undisturbed_of_matches {p : RetryPolicy} {x : Coordinating (Simulation σ) α}
    (hx : Matches (Calms p) x.run x.run) {s : Simulation σ} (h : s.faults.Bearable p) :
    Undisturbed x s := by
  obtain ⟨hanswer, hcalms⟩ := hx s s.calmed (calms_calmed h)
  exact ⟨hanswer, hcalms.world, hcalms.requested⟩

/-- Faults of retried calls that pass, also where failed attempts took effect, disturb no operation
of a coordinator over a steady store. -/
theorem undisturbed_of_bearable [RecordStore.Steady σ] {s : Simulation σ}
    (h : s.faults.Bearable settings.retry) :
    (∀ t, Undisturbed ((coordinator settings).handle t) s) ∧
      (∀ execution object deployment,
        Undisturbed ((coordinator settings).register execution object deployment) s) ∧
      (∀ deployment object message code,
        Undisturbed ((coordinator settings).recordError deployment object message code) s) ∧
      (∀ deployment object status,
        Undisturbed ((coordinator settings).recordPlanStatus deployment object status) s) ∧
      (∀ object deployment, Undisturbed ((coordinator settings).lookup object deployment) s) ∧
      ∀ execution deployment,
        Undisturbed ((coordinator settings).findByExecution execution deployment) s := by
  have hstep := inStep_calmed (σ := σ) settings
  refine ⟨fun t => ?_, fun execution object deployment => ?_,
    fun deployment object message code => ?_, fun deployment object status => ?_,
    fun object deployment => ?_, fun execution deployment => ?_⟩
  · exact undisturbed_of_matches (hstep.handle t) h
  · exact undisturbed_of_matches (hstep.changeRows object deployment _) h
  · exact undisturbed_of_matches (hstep.changeRows object deployment _) h
  · exact undisturbed_of_matches (hstep.changeRows object deployment _) h
  · exact undisturbed_of_matches (hstep.lookup object deployment) h
  · exact undisturbed_of_matches (matches_findByExecution settings execution deployment) h

end Coordinators

/-! ## Flaky collaborators -/

/-- The contested world where each kind of call fails.  One change is made although its attempt times
out, another attempt takes longer than it may, and a stop that is made is reported to have failed. -/
def flaky : Simulation RecordTable where
  world := World.contested
  faults := {
    ofObject := [{ error := some (.backend "throttled") }, { error := some .timeout }, {},
      { delay := 40000 }]
    ofDeployment := [{ error := some .timeout }]
    latest := [{ error := some .timeout }, { delay := 7, error := some (.backend "throttled") }]
    update := [{ error := some .timeout, landed := true }, {}, { delay := 31000, landed := true },
      { error := some (.backend "throttled"), landed := true }]
    runningOf := [{ error := some (.unavailable "throttled") }]
    stop := [{ error := some .timeout, landed := true }]
    isBusy := [{ error := some .timeout }, { error := some (.unavailable "throttled") },
      { error := some .timeout }] }

theorem bearable_flaky : flaky.faults.Bearable {} where
  ofObject := .retried rfl rfl <| .retried rfl rfl <| .through rfl <| .retried rfl rfl .nil
  ofDeployment := .retried rfl rfl .nil
  latest := .retried rfl rfl <| .retried rfl rfl .nil
  update := .retried rfl rfl <| .through rfl <| .retried rfl rfl <| .retried rfl rfl .nil
  runningOf := .retried rfl rfl .nil
  isBusy := .retried rfl rfl <| .retried rfl rfl <| .retried rfl rfl .nil

/-- The trigger gets through, and so do the other operations. -/
theorem undisturbed_flaky :
    flaky.faults.Bearable {} ∧
      (((coordinator {}).handle World.third).run flaky).1 =
        .ok { World.thirdOutcome with superseded := [] } ∧
      (((coordinator {}).handle World.third).run flaky).2.world =
        (((coordinator {}).handle World.third).run flaky.calmed).2.world ∧
      (((coordinator {}).findByExecution "deploy:two:1" "live").run flaky).1 =
        .ok World.contestedAttempt ∧
      Undisturbed ((coordinator {}).register "deploy:three:1" "app" "live") flaky ∧
      Undisturbed ((coordinator {}).recordError "live" "app" "rolled back" "failed") flaky ∧
      Undisturbed ((coordinator {}).recordPlanStatus "live" "app" "executed") flaky ∧
      Undisturbed ((coordinator {}).lookup "app" "live") flaky := by
  obtain ⟨hhandle, hregister, hrecordError, hrecordPlanStatus, hlookup, hfind⟩ :=
    undisturbed_of_bearable {} bearable_flaky
  have hcalm : (((coordinator {}).handle World.third).run flaky.calmed).1 =
      .ok { World.thirdOutcome with superseded := [] } := by decide +kernel
  have hfound : (((coordinator {}).findByExecution "deploy:two:1" "live").run flaky.calmed).1 =
      .ok World.contestedAttempt := by decide +kernel
  exact ⟨bearable_flaky, (hhandle _).1.trans hcalm, (hhandle _).2.1, (hfind _ _).1.trans hfound,
    hregister _ _ _, hrecordError _ _ _ _, hrecordPlanStatus _ _ _, hlookup _ _⟩

end Simulation

end Rollout
