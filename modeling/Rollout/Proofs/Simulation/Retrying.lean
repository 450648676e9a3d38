import Rollout.Proofs.Coordinator.Handling
import Rollout.Proofs.Store.Contract
import Rollout.Simulation.Basic

/-!
# Retried calls and their faults

Each kind of call meets the faults of its own queue, a `Lane`.  `Fault.endure` tells from the queue
alone how a retried call comes out: it fails in the end, or it succeeds and leaves some of the faults.
`Simulation.comes_retry` says that this is how it comes out.  A call that succeeds has had its effect
once, also where failed attempts took effect before, provided that the effect may be repeated
(`Simulation.Settled`).

Where a simulation stands after some calls is told by `Simulation.Led`: its world, the faults ahead,
and the stops that were requested on the way, granted or not.
-/

namespace Rollout

/-! ## Faults -/

namespace Fault

variable {ε : Type}

/-- The fault with its failure told in other words. -/
def reword (word : ε → ε) (f : Fault ε) : Fault ε := { f with error := f.error.map word }

theorem reword_id (f : Fault ε) : f.reword id = f := by
  rw [reword, Option.map_id_apply]

variable [Transient ε]

/-- The words for a failure leave its nature alone. -/
structure Rewording (word : ε → ε) : Prop where
  timedOut : word Transient.timedOut = Transient.timedOut
  isTransient : ∀ e, Transient.isTransient (word e) = Transient.isTransient e

theorem rewording_id : Rewording (id : ε → ε) := ⟨rfl, fun _ => rfl⟩

/-- How an attempt fails under a policy, if it does: it overruns its time or meets the failure. -/
def failure? (p : RetryPolicy) (f : Fault ε) : Option ε :=
  if f.overruns p.attemptTimeout then some Transient.timedOut else f.error

theorem failure?_reword {word : ε → ε} (hword : Rewording word) (p : RetryPolicy) (f : Fault ε) :
    (f.reword word).failure? p = (f.failure? p).map word := by
  have hoverruns : (f.reword word).overruns p.attemptTimeout = f.overruns p.attemptTimeout := rfl
  rw [failure?, failure?, hoverruns]
  split
  · rw [Option.map_some, hword.timedOut]
  · rfl

/-- How a call with some retries left comes out against the faults ahead: it fails, or it succeeds and
leaves some of them. -/
def endureFrom (p : RetryPolicy) : (left : Nat) → List (Fault ε) → Except ε (List (Fault ε))
  | 0, faults =>
    match (faults.headD {}).failure? p with
    | none => .ok faults.tail
    | some e => .error e
  | left + 1, faults =>
    match (faults.headD {}).failure? p with
    | none => .ok faults.tail
    | some e => if Transient.isTransient e then endureFrom p left faults.tail else .error e

/-- How a retried call comes out against the faults ahead. -/
def endure (p : RetryPolicy) (faults : List (Fault ε)) : Except ε (List (Fault ε)) :=
  endureFrom p p.maxRetries.toNat faults

end Fault

/-! ## Lanes -/

/-- One of the queues of faults that retried calls meet. -/
structure Lane (ε : Type) where
  ahead : Faults → List (Fault ε)
  replace : Faults → List (Fault ε) → Faults
  ahead_replace : ∀ faults queue, ahead (replace faults queue) = queue
  replace_replace : ∀ faults queue later, replace (replace faults queue) later = replace faults later
  /-- The faults of stops stand apart. -/
  stop_replace : ∀ faults queue, (replace faults queue).stop = faults.stop
  ahead_stops : ∀ stops, ahead { stop := stops } = []
  replace_stops : ∀ stops, replace { stop := stops } [] = { stop := stops }

namespace Lane

def ofObject : Lane StoreError :=
  ⟨Faults.ofObject, fun f queue => { f with ofObject := queue }, fun _ _ => rfl, fun _ _ _ => rfl,
    fun _ _ => rfl, fun _ => rfl, fun _ => rfl⟩

def ofDeployment : Lane StoreError :=
  ⟨Faults.ofDeployment, fun f queue => { f with ofDeployment := queue }, fun _ _ => rfl,
    fun _ _ _ => rfl, fun _ _ => rfl, fun _ => rfl, fun _ => rfl⟩

def latest : Lane StoreError :=
  ⟨Faults.latest, fun f queue => { f with latest := queue }, fun _ _ => rfl, fun _ _ _ => rfl,
    fun _ _ => rfl, fun _ => rfl, fun _ => rfl⟩

def update : Lane StoreError :=
  ⟨Faults.update, fun f queue => { f with update := queue }, fun _ _ => rfl, fun _ _ _ => rfl,
    fun _ _ => rfl, fun _ => rfl, fun _ => rfl⟩

def runningOf : Lane ControlError :=
  ⟨Faults.runningOf, fun f queue => { f with runningOf := queue }, fun _ _ => rfl, fun _ _ _ => rfl,
    fun _ _ => rfl, fun _ => rfl, fun _ => rfl⟩

def isBusy : Lane ControlError :=
  ⟨Faults.isBusy, fun f queue => { f with isBusy := queue }, fun _ _ => rfl, fun _ _ _ => rfl,
    fun _ _ => rfl, fun _ => rfl, fun _ => rfl⟩

end Lane

/-! ## Where calls lead -/

/-- The stop that a call requests. -/
def LoggedCall.stop? : LoggedCall → Option Stop
  | .stop execution cause => some ⟨execution, cause⟩
  | _ => none

namespace Simulation

variable {σ α ε : Type}

/-- The stops that were requested, granted or not. -/
def requested (s : Simulation σ) : List Stop := s.log.filterMap LoggedCall.stop?

/-- Calls that requested the given stops led to a world and the faults ahead. -/
structure Led (s : Simulation σ) (requests : List Stop) (w : World σ) (faults : Faults)
    (s' : Simulation σ) : Prop where
  world : s'.world = w
  faults : s'.faults = faults
  requested : s'.requested = s.requested ++ requests

theorem Led.trans {s s' s'' : Simulation σ} {requests further : List Stop} {w w' : World σ}
    {faults faults' : Faults} (h : Led s requests w faults s') (h' : Led s' further w' faults' s'') :
    Led s (requests ++ further) w' faults' s'' :=
  ⟨h'.world, h'.faults, by rw [h'.requested, h.requested, List.append_assoc]⟩

/-! ## Attempts -/

/-- A failed attempt took its effect or did not. -/
theorem left_cases (fault : Fault ε) (effect : World σ → Except ε α × World σ)
    (s : Simulation σ) : s.left fault effect = s.world ∨ s.left fault effect = (effect s.world).2 := by
  rw [left]
  split
  · exact .inr rfl
  · exact .inl rfl

theorem filterMap_stop?_log (s : Simulation σ) (call : LoggedCall) :
    (s.log ++ [call]).filterMap LoggedCall.stop? = s.requested ++ call.stop?.toList := by
  rw [List.filterMap_append, requested]
  cases call <;> rfl

/-- An attempt that meets no failure takes its effect, and one that does may take it. -/
theorem attempt_cases (call : LoggedCall) (ahead : Faults) (fault : Fault ε)
    (effect : World σ → Except ε α × World σ) (s : Simulation σ) :
    (∃ s', fault.error = none ∧ s.attempt call ahead fault effect = ((effect s.world).1, s') ∧
        Led s call.stop?.toList (effect s.world).2 ahead s') ∨
      ∃ e s', fault.error = some e ∧ s.attempt call ahead fault effect = (.error e, s') ∧
        Led s call.stop?.toList (s.left fault effect) ahead s' := by
  rw [attempt]
  cases fault.error with
  | none => exact .inl ⟨_, rfl, rfl, rfl, rfl, s.filterMap_stop?_log call⟩
  | some e => exact .inr ⟨e, _, rfl, rfl, rfl, rfl, s.filterMap_stop?_log call⟩

section Attempts

variable [Transient ε]

/-- So is an attempt under a limit, where an overrun fails as a timeout. -/
theorem attemptWithin_cases (p : RetryPolicy) (call : LoggedCall) (ahead : Faults)
    (fault : Fault ε) (effect : World σ → Except ε α × World σ) (s : Simulation σ) :
    (∃ s', fault.failure? p = none ∧
        s.attemptWithin p.attemptTimeout call ahead fault effect =
          (some (effect s.world).1, s') ∧
        Led s call.stop?.toList (effect s.world).2 ahead s') ∨
      ∃ e result s', fault.failure? p = some e ∧
        s.attemptWithin p.attemptTimeout call ahead fault effect = (result, s') ∧
        result.getD (.error Transient.timedOut) = .error e ∧
        Led s call.stop?.toList (s.left fault effect) ahead s' := by
  rw [attemptWithin, Fault.failure?]
  cases fault.overruns p.attemptTimeout with
  | true => exact .inr ⟨_, none, _, rfl, rfl, rfl, rfl, rfl, s.filterMap_stop?_log call⟩
  | false =>
    rcases s.attempt_cases call ahead fault effect with
      ⟨s', herror, hrun, hled⟩ | ⟨e, s', herror, hrun, hled⟩
    · exact .inl ⟨s', herror, by rw [hrun]; rfl, hled⟩
    · exact .inr ⟨e, _, s', herror, by rw [hrun]; rfl, rfl, hled⟩

/-- The attempts of a call meet the faults of a lane and fail in words of the call.  They request no
stop. -/
structure Meets (call : Call (Simulation σ) ε α) (lane : Lane ε) (word : ε → ε)
    (effect : World σ → Except ε α × World σ) : Prop where
  rewording : Fault.Rewording word
  attempt : ∀ limit s, ∃ logged : LoggedCall, logged.stop? = none ∧
    call limit s = s.attemptWithin limit logged
      (lane.replace s.faults (lane.ahead s.faults).tail)
      (((lane.ahead s.faults).headD {}).reword word) effect

variable {call : Call (Simulation σ) ε α} {lane : Lane ε} {word : ε → ε}
  {effect : World σ → Except ε α × World σ}

theorem Meets.attempt_cases (h : Meets call lane word effect) (p : RetryPolicy)
    (s : Simulation σ) :
    (∃ s', ((lane.ahead s.faults).headD {}).failure? p = none ∧
        p.attempt call s = ((effect s.world).1, s') ∧
        Led s [] (effect s.world).2 (lane.replace s.faults (lane.ahead s.faults).tail) s') ∨
      ∃ e w s', ((lane.ahead s.faults).headD {}).failure? p = some e ∧
        p.attempt call s = (.error (word e), s') ∧
        Led s [] w (lane.replace s.faults (lane.ahead s.faults).tail) s' ∧
        (w = s.world ∨ w = (effect s.world).2) := by
  obtain ⟨logged, hstop, hcall⟩ := h.attempt p.attemptTimeout s
  have hcases := attemptWithin_cases p logged (lane.replace s.faults (lane.ahead s.faults).tail)
    (((lane.ahead s.faults).headD {}).reword word) effect s
  rw [hstop, Fault.failure?_reword h.rewording, ← hcall] at hcases
  rw [p.attempt_eq]
  rcases hcases with ⟨s', hfailure, hrun, hled⟩ | ⟨e, result, s', hfailure, hrun, hresult, hled⟩
  · exact .inl ⟨s', Option.map_eq_none_iff.mp hfailure, by rw [hrun]; rfl, hled⟩
  · obtain ⟨cause, hcause, rfl⟩ := Option.map_eq_some_iff.mp hfailure
    exact .inr ⟨cause, _, s', hcause, by rw [hrun, hresult], hled, s.left_cases _ effect⟩

end Attempts

/-! ## Retries -/

section Comings

variable {ε' ε'' : Type} {s : Simulation σ} {lane : Lane ε} {word : ε → ε'}
  {answer : Except ε' α} {w : World σ} {faults : Except ε (List (Fault ε))}

/-- How a call comes out when its faults come out as told: it has its answer and the world that it
leads to, or it fails in the given words, in a world that it may have led to. -/
inductive Comes (s : Simulation σ) (lane : Lane ε) (word : ε → ε') (answer : Except ε' α)
    (w : World σ) : Except ε (List (Fault ε)) → Except ε' α × Simulation σ → Prop
  | through {rest s'} : Led s [] w (lane.replace s.faults rest) s' →
      Comes s lane word answer w (.ok rest) (answer, s')
  | failed {e w' ahead s'} : Led s [] w' ahead s' → w' = s.world ∨ w' = w →
      Comes s lane word answer w (.error e) (.error (word e), s')

/-- What a later attempt comes to, the call comes to. -/
theorem Comes.behind {s' : Simulation σ} {w' : World σ} {queue : List (Fault ε)}
    {result : Except ε' α × Simulation σ} (h : Comes s' lane word answer w faults result)
    (hled : Led s [] w' (lane.replace s.faults queue) s') (hw : w' = s.world ∨ w' = w) :
    Comes s lane word answer w faults result := by
  cases h with
  | through hthrough =>
    rw [hled.faults, lane.replace_replace] at hthrough
    exact .through (hled.trans hthrough)
  | failed hfailed hw' =>
    refine .failed (hled.trans hfailed) ?_
    rcases hw' with rfl | rfl
    · rw [hled.world]
      exact hw
    · exact .inr rfl

/-- The failures of a call may be passed on in other words. -/
theorem Comes.mapError {x : StateM (Simulation σ) (Except ε' α)}
    (h : Comes s lane word answer w faults (x s)) (wrap : ε' → ε'') :
    Comes s lane (wrap ∘ word) (answer.mapError wrap) w faults
      ((do return (← x).mapError wrap : StateM (Simulation σ) (Except ε'' α)) s) := by
  obtain ⟨result, s', hx⟩ : ∃ result s', x s = (result, s') := ⟨_, _, rfl⟩
  rw [run_bind_eq hx]
  rw [hx] at h
  cases h with
  | through hled => exact .through hled
  | failed hled hw => exact .failed hled hw

end Comings

section Retries

variable [RecordStore σ] [Transient ε] {call : Call (Simulation σ) ε α} {lane : Lane ε}
  {word : ε → ε} {effect : World σ → Except ε α × World σ} {answer : Except ε α} {w : World σ}

/-- The pauses of a simulation. -/
def pause (duration : Nanos) : StateM (Simulation σ) Unit :=
  (collaborators : Collaborators (Simulation σ)).pause duration

theorem run_pause (duration : Nanos) (s : Simulation σ) :
    ∃ s', pause duration s = ((), s') ∧ Led s [] s.world s.faults s' := by
  refine ⟨{ s with clock := s.clock + millisOf duration }, ?_, rfl, rfl, ?_⟩
  · simp only [pause, collaborators]
  · rw [List.append_nil, requested, requested]

/-- An effect that comes to the answer and the world from here, and from there once more. -/
structure Settled (effect : World σ → Except ε α × World σ) (s : Simulation σ) (answer : Except ε α)
    (w : World σ) : Prop where
  once : effect s.world = (answer, w)
  again : effect w = (answer, w)
  /-- A failure of the effect itself is final. -/
  final : ∀ e, answer = .error e → Transient.isTransient e = false

omit [RecordStore σ] in
/-- A failed attempt leaves the effect settled. -/
theorem Settled.after {s s' : Simulation σ} {w' : World σ} {faults : Faults}
    (h : Settled effect s answer w) (hled : Led s [] w' faults s') (hw : w' = s.world ∨ w' = w) :
    Settled effect s' answer w where
  once := by
    rw [hled.world]
    rcases hw with rfl | rfl
    · exact h.once
    · exact h.again
  again := h.again
  final := h.final

/-- A call that may be retried comes out as its faults do. -/
theorem comes_retryFrom (h : Meets call lane word effect) (p : RetryPolicy) :
    ∀ (left retries : Nat) (s : Simulation σ), Settled effect s answer w →
      Comes s lane word answer w (Fault.endureFrom p left (lane.ahead s.faults))
        (retryFrom p pause call retries left s)
  | 0, retries, s, hsettled => by
      have hattempt := h.attempt_cases p s
      rw [hsettled.once] at hattempt
      rw [retryFrom, Fault.endureFrom]
      rcases hattempt with ⟨s', hfailure, hrun, hled⟩ | ⟨e, w', s', hfailure, hrun, hled, hw⟩
      · rw [hfailure, hrun]
        exact .through hled
      · rw [hfailure, hrun]
        exact .failed hled hw
  | left + 1, retries, s, hsettled => by
      have hattempt := h.attempt_cases p s
      rw [hsettled.once] at hattempt
      rw [retryFrom, Fault.endureFrom]
      rcases hattempt with ⟨s', hfailure, hrun, hled⟩ | ⟨e, w', s', hfailure, hrun, hled, hw⟩
      · rw [hfailure, run_bind_eq hrun]
        cases answer with
        | ok a => exact .through hled
        | error e =>
          dsimp only
          rw [hsettled.final e rfl]
          exact .through hled
      · rw [hfailure, run_bind_eq hrun]
        dsimp only
        rw [h.rewording.isTransient]
        cases Transient.isTransient e with
        | false => exact .failed hled hw
        | true =>
          -- The next attempt starts behind the pause, from a world that the effect may have reached.
          obtain ⟨s'', hpause, hled'⟩ := run_pause (p.backoff retries) s'
          have hpaused := hled.trans hled'
          rw [hled.world, hled.faults] at hpaused
          have hnext := comes_retryFrom h p left (retries + 1) s'' (hsettled.after hpaused hw)
          rw [hpaused.faults, lane.ahead_replace] at hnext
          rw [if_pos rfl, if_pos rfl, run_bind_eq hpause]
          exact hnext.behind hpaused hw

theorem comes_retry (h : Meets call lane word effect) (p : RetryPolicy) {s : Simulation σ}
    (hsettled : Settled effect s answer w) :
    Comes s lane word answer w (Fault.endure p (lane.ahead s.faults)) (retry p pause call s) := by
  rw [retry_eq, Fault.endure]
  exact comes_retryFrom h p _ 0 s hsettled

/-- A retried call of the store comes out as its faults do. -/
theorem comes_askStore (settings : CoordinatorSettings) {call : Call (Simulation σ) StoreError α}
    {lane : Lane StoreError} {word : StoreError → StoreError}
    {effect : World σ → Except StoreError α × World σ} {answer : Except StoreError α} {w : World σ}
    (h : Meets call lane word effect) {s : Simulation σ} (hsettled : Settled effect s answer w) :
    Comes s lane (CoordinatorError.store ∘ word) (answer.mapError .store) w
      (Fault.endure settings.retry (lane.ahead s.faults))
      (((coordinator settings).askStore call).run s) :=
  (comes_retry h settings.retry hsettled).mapError _

/-- So does a retried call of the engine or the probe. -/
theorem comes_askControl (settings : CoordinatorSettings)
    {call : Call (Simulation σ) ControlError α} {lane : Lane ControlError}
    {word : ControlError → ControlError} {effect : World σ → Except ControlError α × World σ}
    {answer : Except ControlError α} {w : World σ}
    (h : Meets call lane word effect) {s : Simulation σ} (hsettled : Settled effect s answer w) :
    Comes s lane (CoordinatorError.control ∘ word) (answer.mapError .control) w
      (Fault.endure settings.retry (lane.ahead s.faults))
      (((coordinator settings).askControl call).run s) :=
  (comes_retry h settings.retry hsettled).mapError _

end Retries

/-! ## The calls that are retried -/

section Calls

variable [RecordStore σ]

theorem meets_ofObject (object deployment : String) :
    Meets ((collaborators : Collaborators (Simulation σ)).ofObject object deployment) .ofObject id
      (World.ofObject object deployment) where
  rewording := Fault.rewording_id
  attempt limit s := ⟨.ofObject object deployment, rfl, by rw [Fault.reword_id]; rfl⟩

theorem meets_ofDeployment (deployment : String) :
    Meets ((collaborators : Collaborators (Simulation σ)).ofDeployment deployment) .ofDeployment id
      (World.ofDeployment deployment) where
  rewording := Fault.rewording_id
  attempt limit s := ⟨.ofDeployment deployment, rfl, by rw [Fault.reword_id]; rfl⟩

theorem meets_latest (deployment : String) (count : Nat) :
    Meets ((collaborators : Collaborators (Simulation σ)).latest deployment count) .latest id
      (World.latest deployment count) where
  rewording := Fault.rewording_id
  attempt limit s := ⟨.latest deployment count, rfl, by rw [Fault.reword_id]; rfl⟩

theorem meets_runningOf (workflow : String) :
    Meets ((collaborators : Collaborators (Simulation σ)).runningOf workflow) .runningOf id
      (World.runningOf workflow) where
  rewording := Fault.rewording_id
  attempt limit s := ⟨.runningOf workflow, rfl, by rw [Fault.reword_id]; rfl⟩

theorem meets_isBusy (target : String) :
    Meets ((collaborators : Collaborators (Simulation σ)).isBusy target) .isBusy id
      (World.probe target) where
  rewording := Fault.rewording_id
  attempt limit s := ⟨.isBusy target, rfl, by rw [Fault.reword_id]; rfl⟩

theorem rewording_nameRow (key : RecordKey) : Fault.Rewording (nameRow key) where
  timedOut := rfl
  isTransient e := by cases e <;> rfl

/-- A change that fails for want of a row names its own. -/
theorem meets_update (key : RecordKey) (change : Record.Change) :
    Meets ((collaborators : Collaborators (Simulation σ)).update key change) .update (nameRow key)
      (World.update key change) where
  rewording := rewording_nameRow key
  attempt _ _ := ⟨.update key, rfl, rfl⟩

omit [RecordStore σ] in
/-- What only reads is settled if its failures are final. -/
theorem settled_read {answer : World σ → Except ε α} [Transient ε] {s : Simulation σ}
    (hfinal : ∀ e, answer s.world = .error e → Transient.isTransient e = false) :
    Settled (fun w => (answer w, w)) s (answer s.world) s.world :=
  ⟨rfl, rfl, hfinal⟩

/-- A change of a steady store may be repeated. -/
theorem settled_update [RecordStore.Steady σ] (key : RecordKey) (change : Record.Change)
    (s : Simulation σ) :
    Settled (World.update key change) s (s.world.update key change).1
      (s.world.update key change).2 := by
  cases hupdate : RecordStore.update key change s.world.store with
  | error e =>
    have hrun : s.world.update key change = (.error e, s.world) := by rw [World.update, hupdate]
    rw [hrun]
    refine ⟨hrun, hrun, fun e' herror => ?_⟩
    rw [← Except.error.inj herror]
    exact RecordStore.Steady.update hupdate
  | ok store =>
    have hrun : s.world.update key change = (.ok (), { s.world with store := store }) := by
      rw [World.update, hupdate]
    rw [hrun]
    refine ⟨hrun, ?_, fun e herror => ?_⟩
    · rw [World.update, RecordStore.Steady.update_again hupdate]
    · cases herror

end Calls

end Simulation

end Rollout
