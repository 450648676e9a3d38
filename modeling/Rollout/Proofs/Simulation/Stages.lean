import Rollout.Proofs.Simulation.Retrying

/-!
# Stages of a trigger that meets faults

Whether a stage of a trigger fails, and of what, can be told from the faults ahead and the records of
the table that the store holds.  This is its *verdict*, a computation in which nothing but faults is
used up.  `Simulation.Ends` says that a run comes out as a verdict says, and what holds after it in
either case.

The verdicts do not look at the faults of stops, since a stop that fails is passed over.
-/

namespace Rollout

/-! ## Verdicts -/

/-- How changes of rows, one after the other, come out against the faults ahead. -/
def Fault.endureRows (p : RetryPolicy) :
    List RecordKey → List (Fault StoreError) → Except CoordinatorError (List (Fault StoreError))
  | [], faults => return faults
  | key :: rest, faults => do
    let left ← (Fault.endure p faults).mapError (.store ∘ Simulation.nameRow key)
    endureRows p rest left

namespace Faults

/-- The attempt that a trigger finds, and the faults that the lookup leaves to the next query. -/
def lookup (p : RetryPolicy) (t : Trigger) (table : RecordTable) (faults : Faults) :
    Except CoordinatorError (Record × List (Fault StoreError)) := do
  let left ← (Fault.endure p faults.ofObject).mapError .store
  match (table.ofObject t.object t.deployment).find? fun r => !r.isTemplate with
  | some r => return (r, left)
  | none => throw (.notFound t.object t.deployment)

/-- An execution with no others in its workflow is admitted without a look at the latest records. -/
def admission (p : RetryPolicy) (alone : Bool) (faults : Faults) : Except CoordinatorError Unit := do
  let _ ← (Fault.endure p faults.runningOf).mapError .control
  if alone then return ()
  let _ ← (Fault.endure p faults.latest).mapError .store

/-- The registration on rows; the query meets the faults that the lookup left. -/
def registration (p : RetryPolicy) (keys : List RecordKey) (left : List (Fault StoreError))
    (faults : Faults) : Except CoordinatorError Unit := do
  let _ ← (Fault.endure p left).mapError .store
  let _ ← Fault.endureRows p keys faults.update

/-- Whether the probe answers. -/
def probe (p : RetryPolicy) (faults : Faults) : Except CoordinatorError Unit := do
  let _ ← (Fault.endure p faults.isBusy).mapError .control

/-- Whether a trigger fails; if not, the attempt that it finds. -/
def trigger (p : RetryPolicy) (t : Trigger) (table : RecordTable) (alone : Bool)
    (faults : Faults) : Except CoordinatorError Record := do
  let (r, left) ← faults.lookup p t table
  faults.admission p alone
  faults.registration p ((table.ofObject t.object t.deployment).map Record.key) left
  faults.probe p
  return r

/-- Whether admission and registration fail, behind a lookup that left some faults. -/
def advisory (p : RetryPolicy) (t : Trigger) (table : RecordTable) (alone : Bool)
    (left : List (Fault StoreError)) (faults : Faults) : Except CoordinatorError Unit := do
  faults.admission p alone
  faults.registration p ((table.ofObject t.object t.deployment).map Record.key) left

/-- Where the lookup finds an attempt and the probe answers, the other stages decide. -/
theorem trigger_eq {p : RetryPolicy} {t : Trigger} {table : RecordTable} {faults : Faults}
    {left : List (Fault StoreError)} {rest : List (Fault ControlError)} {r : Record}
    (hlookup : Fault.endure p faults.ofObject = .ok left)
    (hfind : (table.ofObject t.object t.deployment).find? (fun r => !r.isTemplate) = some r)
    (hprobe : Fault.endure p faults.isBusy = .ok rest) (alone : Bool) :
    faults.trigger p t table alone = (faults.advisory p t table alone left).map fun _ => r := by
  have hfound : faults.lookup p t table = .ok (r, left) := by
    rw [lookup, hlookup, hfind]
    rfl
  have hanswer : faults.probe p = .ok () := by
    rw [probe, hprobe]
    rfl
  rw [trigger, advisory, hfound, hanswer]
  cases faults.admission p alone with
  | error e => rfl
  | ok _ =>
    show (faults.registration p _ left >>= _) = (faults.registration p _ left).map _
    cases faults.registration p ((table.ofObject t.object t.deployment).map Record.key) left <;> rfl

/-- The verdict on a trigger does not look at the faults of stops. -/
theorem trigger_stop (p : RetryPolicy) (t : Trigger) (table : RecordTable) (alone : Bool)
    (faults : Faults) (stops : List (Fault ControlError)) :
    ({ faults with stop := stops } : Faults).trigger p t table alone =
      faults.trigger p t table alone :=
  rfl

end Faults

/-- No other execution of the workflow runs. -/
def World.alone {σ : Type} (t : Trigger) (w : World σ) : Bool :=
  ((w.engine.runningOf t.workflow).filter (· != t.execution)).isEmpty

namespace Simulation

open Coordinator RecordStore

variable {σ α β δ γ : Type}

/-! ## Runs and verdicts -/

/-- A run that ends as a verdict says, and what holds then. -/
inductive Ends (done : δ → α → Simulation σ → Prop) (failed : CoordinatorError → Simulation σ → Prop) :
    Except CoordinatorError δ → Except CoordinatorError α × Simulation σ → Prop
  | done {d a s'} : done d a s' → Ends done failed (.ok d) (.ok a, s')
  | failed {e s'} : failed e s' → Ends done failed (.error e) (.error e, s')

/-- Nothing has changed and no stop was requested. -/
structure Untouched (s s' : Simulation σ) : Prop where
  world : s'.world = s.world
  requested : s'.requested = s.requested

/-- So nothing has, behind calls that only read. -/
theorem Untouched.behind {s s₁ s' : Simulation σ} {faults : Faults} (h : Untouched s₁ s')
    (hled : Led s [] s.world faults s₁) : Untouched s s' :=
  ⟨h.world.trans hled.world, by rw [h.requested, hled.requested, List.append_nil]⟩

theorem Led.untouched {s s' : Simulation σ} {faults : Faults} (h : Led s [] s.world faults s') :
    Untouched s s' :=
  ⟨h.world, by rw [h.requested, List.append_nil]⟩

section Ends

variable {done : δ → α → Simulation σ → Prop} {failed : CoordinatorError → Simulation σ → Prop}
  {verdict : Except CoordinatorError δ} {s : Simulation σ}

theorem Ends.imp {done' : δ → α → Simulation σ → Prop}
    {failed' : CoordinatorError → Simulation σ → Prop}
    {result : Except CoordinatorError α × Simulation σ} (h : Ends done failed verdict result)
    (hdone : ∀ d a s', done d a s' → done' d a s') (hfailed : ∀ e s', failed e s' → failed' e s') :
    Ends done' failed' verdict result := by
  cases h with
  | done h => exact .done (hdone _ _ _ h)
  | failed h => exact .failed (hfailed _ _ h)

theorem Ends.of_ok {d : δ} {result : Except CoordinatorError α × Simulation σ}
    (h : Ends done failed (.ok d) result) : ∃ a s', result = (.ok a, s') ∧ done d a s' := by
  cases h with
  | done h => exact ⟨_, _, rfl, h⟩

theorem Ends.of_error {e : CoordinatorError} {result : Except CoordinatorError α × Simulation σ}
    (h : Ends done failed (.error e) result) : ∃ s', result = (.error e, s') ∧ failed e s' := by
  cases h with
  | failed h => exact ⟨_, rfl, h⟩

/-- A run that fails has the verdict for it. -/
theorem Ends.verdict_of_error {e : CoordinatorError} {s' : Simulation σ}
    (h : Ends done failed verdict (.error e, s')) : verdict = .error e ∧ failed e s' := by
  cases h with
  | failed h => exact ⟨rfl, h⟩

/-- A failure of the first program is that of both, and else the second one ends as it may. -/
theorem Ends.bind {done' : γ → β → Simulation σ → Prop}
    {failed' : CoordinatorError → Simulation σ → Prop} {next : δ → Except CoordinatorError γ}
    {x : Coordinating (Simulation σ) α} {f : α → Coordinating (Simulation σ) β}
    (h : Ends done failed verdict (x.run s))
    (hfailed : ∀ e s', x.run s = (.error e, s') → failed e s' → failed' e s')
    (hnext : ∀ d a s', x.run s = (.ok a, s') → done d a s' →
      Ends done' failed' (next d) ((f a).run s')) :
    Ends done' failed' (verdict >>= next) ((x >>= f).run s) := by
  generalize hrun : x.run s = result at h
  cases h with
  | done h =>
    rw [run_bind_ok hrun]
    exact hnext _ _ _ hrun h
  | failed h =>
    rw [run_bind_error hrun]
    exact .failed (hfailed _ _ hrun h)

/-- A retried call whose effect succeeds ends as its faults say. -/
theorem Comes.ends {ε : Type} {lane : Lane ε} {word : ε → CoordinatorError} {a : α} {w : World σ}
    {faults : Except ε (List (Fault ε))} {result : Except CoordinatorError α × Simulation σ}
    (h : Comes s lane word (.ok a) w faults result) :
    Ends (fun rest b s' => b = a ∧ Led s [] w (lane.replace s.faults rest) s')
      (fun _ s' => ∃ w' ahead, Led s [] w' ahead s' ∧ (w' = s.world ∨ w' = w))
      (faults.mapError word) result := by
  cases h with
  | through hled => exact .done ⟨rfl, hled⟩
  | failed hled hw => exact .failed ⟨_, _, hled, hw⟩

/-- A retried call that only reads touches nothing. -/
theorem Comes.ends_read {ε : Type} {lane : Lane ε} {word : ε → CoordinatorError} {a : α}
    {faults : Except ε (List (Fault ε))} {result : Except CoordinatorError α × Simulation σ}
    (h : Comes s lane word (.ok a) s.world faults result) :
    Ends (fun rest b s' => b = a ∧ Led s [] s.world (lane.replace s.faults rest) s')
      (fun _ s' => Untouched s s') (faults.mapError word) result := by
  refine h.ends.imp (fun _ _ _ h => h) ?_
  rintro _ s' ⟨w', ahead, hled, hw⟩
  rw [or_self_iff.mp hw] at hled
  exact hled.untouched

end Ends

/-! ## Queries -/

section Queries

variable [RecordStore σ] (settings : CoordinatorSettings) {s : Simulation σ} {a : α}

/-- A call that reads the store. -/
theorem ends_askStore {call : Call (Simulation σ) StoreError α} {lane : Lane StoreError}
    {answer : World σ → Except StoreError α} (hmeets : Meets call lane id fun w => (answer w, w))
    (hanswer : answer s.world = .ok a) :
    Ends (fun left b s' => b = a ∧ Led s [] s.world (lane.replace s.faults left) s')
      (fun _ s' => Untouched s s')
      ((Fault.endure settings.retry (lane.ahead s.faults)).mapError .store)
      (((coordinator settings).askStore call).run s) := by
  have hcomes := comes_askStore settings hmeets
    (settled_read fun e herror => nomatch hanswer.symm.trans herror)
  rw [hanswer] at hcomes
  exact hcomes.ends_read

/-- A call that reads the engine or the probe. -/
theorem ends_askControl {call : Call (Simulation σ) ControlError α} {lane : Lane ControlError}
    {answer : World σ → Except ControlError α} (hmeets : Meets call lane id fun w => (answer w, w))
    (hanswer : answer s.world = .ok a) :
    Ends (fun left b s' => b = a ∧ Led s [] s.world (lane.replace s.faults left) s')
      (fun _ s' => Untouched s s')
      ((Fault.endure settings.retry (lane.ahead s.faults)).mapError .control)
      (((coordinator settings).askControl call).run s) := by
  have hcomes := comes_askControl settings hmeets
    (settled_read fun e herror => nomatch hanswer.symm.trans herror)
  rw [hanswer] at hcomes
  exact hcomes.ends_read

end Queries

section Stages

variable [RecordStore σ] [Tabular σ] (settings : CoordinatorSettings) (t : Trigger)
  {s : Simulation σ} {table : RecordTable}

theorem ends_ofObject (h : Tabular.Holds s.world.store table) (object deployment : String) :
    Ends (fun left records s' => records = table.ofObject object deployment ∧
        Led s [] s.world { s.faults with ofObject := left } s')
      (fun _ s' => Untouched s s')
      ((Fault.endure settings.retry s.faults.ofObject).mapError .store)
      (((coordinator settings).askStore
        ((collaborators : Collaborators (Simulation σ)).ofObject object deployment)).run s) :=
  ends_askStore settings (meets_ofObject object deployment)
    ((Tabular.agree h).ofObject object deployment)

/-! ## Lookup -/

theorem ends_lookup (h : Tabular.Holds s.world.store table) :
    Ends (fun found r s' => r = found.1 ∧
        Led s [] s.world { s.faults with ofObject := found.2 } s')
      (fun _ s' => Untouched s s') (s.faults.lookup settings.retry t table)
      (((coordinator settings).lookup t.object t.deployment).run s) := by
  refine (ends_ofObject settings h t.object t.deployment).bind (fun _ _ _ h => h) ?_
  rintro left records s' - ⟨rfl, hled⟩
  cases (table.ofObject t.object t.deployment).find? fun r => !r.isTemplate with
  | none => exact .failed hled.untouched
  | some r => exact .done ⟨rfl, hled⟩

/-! ## Admission -/

omit [Tabular σ] in
/-- One requested stop.  It is granted or leaves the engine alone, unless it is a failed attempt that
took effect. -/
theorem run_requestStop (execution cause : String) (s : Simulation σ) :
    ∃ granted s' engine, ((coordinator settings).requestStop execution cause).run s =
        (.ok granted, s') ∧
      Led s [⟨execution, cause⟩] { s.world with engine := engine }
        { s.faults with stop := s.faults.stop.tail } s' ∧
      ((s.faults.stop.headD {}).landed = false →
        if granted then s.world.engine.stop execution cause = .ok engine
        else engine = s.world.engine) := by
  have hattempt := attempt_cases (.stop execution cause)
    { s.faults with stop := s.faults.stop.tail } (s.faults.stop.headD {})
    (World.stop execution cause) s
  rcases hattempt with ⟨s', _, hcall, hled⟩ | ⟨e, s', _, hcall, hled⟩
  · rcases World.stop_cases s.world execution cause with ⟨engine, hengine, hstop⟩ | ⟨e, hstop⟩
    · rw [hstop] at hcall hled
      exact ⟨_, s', engine, run_requestStop_of_call hcall, hled, fun _ => hengine⟩
    · rw [hstop] at hcall hled
      exact ⟨_, s', s.world.engine, run_requestStop_of_call hcall, hled, fun _ => rfl⟩
  · rw [left] at hled
    generalize (s.faults.stop.headD {}).landed = landed at hled ⊢
    cases landed with
    | false => exact ⟨_, s', s.world.engine, run_requestStop_of_call hcall, hled, fun _ => rfl⟩
    | true =>
      rcases World.stop_cases s.world execution cause with ⟨engine, _, hstop⟩ | ⟨e, hstop⟩
      · rw [if_pos rfl, hstop] at hled
        exact ⟨_, s', engine, run_requestStop_of_call hcall, hled, fun h => by cases h⟩
      · rw [if_pos rfl, hstop] at hled
        exact ⟨_, s', s.world.engine, run_requestStop_of_call hcall, hled, fun h => by cases h⟩

/-- What a completed admission leads to: the stop of each rival was requested, and the engine is the
one after the stops that were granted. -/
structure Admits (s : Simulation σ) (rivals superseded : List String) (s' : Simulation σ) : Prop where
  store : s'.world.store = s.world.store
  busy : s'.world.busy = s.world.busy
  requested : s'.requested = s.requested ++ rivals.map (Stop.mk · supersededCause)
  sublist : superseded.Sublist rivals
  engine : (∀ fault ∈ s.faults.stop, fault.landed = false) →
    Engine.stopEach supersededCause superseded s.world.engine = (superseded, s'.world.engine)
  ofObject : s'.faults.ofObject = s.faults.ofObject
  update : s'.faults.update = s.faults.update
  isBusy : s'.faults.isBusy = s.faults.isBusy

omit [RecordStore σ] [Tabular σ] in
/-- A requested stop and those behind it. -/
theorem Admits.cons {s₁ s' : Simulation σ} {execution : String} {rest superseded : List String}
    {engine : Engine} {granted : Bool}
    (hled : Led s [⟨execution, supersededCause⟩] { s.world with engine := engine }
      { s.faults with stop := s.faults.stop.tail } s₁)
    (hengine : (s.faults.stop.headD {}).landed = false →
      if granted then s.world.engine.stop execution supersededCause = .ok engine
      else engine = s.world.engine)
    (h : Admits s₁ rest superseded s') :
    Admits s (execution :: rest) (if granted then execution :: superseded else superseded) s' where
  store := by rw [h.store, hled.world]
  busy := by rw [h.busy, hled.world]
  requested := by rw [h.requested, hled.requested, List.append_assoc, List.singleton_append,
    List.map_cons]
  sublist := by
    cases granted with
    | true => exact h.sublist.cons_cons execution
    | false => exact h.sublist.cons execution
  engine := by
    intro hlost
    have hfirst : (s.faults.stop.headD {}).landed = false := by
      cases hstop : s.faults.stop with
      | nil => rfl
      | cons fault _ => exact hlost fault (hstop ▸ List.mem_cons_self)
    have hbehind : ∀ fault ∈ s₁.faults.stop, fault.landed = false := by
      intro fault hmem
      rw [hled.faults] at hmem
      exact hlost fault (List.mem_of_mem_tail hmem)
    have hstops := h.engine hbehind
    rw [hled.world] at hstops
    cases granted with
    | true =>
      have hstop : s.world.engine.stop execution supersededCause = .ok engine := hengine hfirst
      rw [if_pos rfl, Engine.stopEach, hstop]
      dsimp only
      rw [hstops]
    | false =>
      have hsame : engine = s.world.engine := hengine hfirst
      rw [if_neg Bool.false_ne_true, ← hsame, hstops]
  ofObject := by rw [h.ofObject, hled.faults]
  update := by rw [h.update, hled.faults]
  isBusy := by rw [h.isBusy, hled.faults]

omit [RecordStore σ] [Tabular σ] in
/-- Admission is behind calls that only read. -/
theorem Admits.behind {s₁ s' : Simulation σ} {rivals superseded : List String}
    {runningOf : List (Fault ControlError)} {latest : List (Fault StoreError)}
    (h : Admits s₁ rivals superseded s')
    (hled : Led s [] s.world { s.faults with runningOf := runningOf, latest := latest } s₁) :
    Admits s rivals superseded s' where
  store := by rw [h.store, hled.world]
  busy := by rw [h.busy, hled.world]
  requested := by rw [h.requested, hled.requested, List.append_nil]
  sublist := h.sublist
  engine := by
    intro hlost
    have hstops := h.engine (by rw [hled.faults]; exact hlost)
    rwa [hled.world] at hstops
  ofObject := by rw [h.ofObject, hled.faults]
  update := by rw [h.update, hled.faults]
  isBusy := by rw [h.isBusy, hled.faults]

omit [Tabular σ] in
/-- No failure of a stop ends the stops of admission. -/
theorem run_stopAll_admits : ∀ (executions : List String) (s : Simulation σ),
    ∃ superseded s', ((coordinator settings).stopAll executions).run s = (.ok superseded, s') ∧
      Admits s executions superseded s'
  | [], s => ⟨[], s, rfl, rfl, rfl, (List.append_nil _).symm, .slnil, fun _ => rfl, rfl, rfl, rfl⟩
  | execution :: rest, s => by
      obtain ⟨granted, s₁, engine, hrun, hled, hengine⟩ :=
        run_requestStop settings execution supersededCause s
      obtain ⟨superseded, s', hrest, hadmits⟩ := run_stopAll_admits rest s₁
      refine ⟨_, s', ?_, hadmits.cons hled hengine⟩
      rw [stopAll]
      exact (run_bind_ok hrun).trans (run_bind_ok hrest)

/-- Admission as the faults say. -/
theorem ends_admission (h : Tabular.Holds s.world.store table) :
    Ends (fun _ superseded s' => Admits s
        (s.world.rivalsAmong t (table.latest t.deployment settings.window)) superseded s')
      (fun _ s' => Untouched s s')
      (s.faults.admission settings.retry (s.world.alone t))
      (((coordinator settings).admission t.execution t.workflow t.deployment).run s) := by
  refine (ends_askControl settings (meets_runningOf t.workflow) rfl).bind (fun _ _ _ h => h) ?_
  rintro left running s₁ - ⟨rfl, hled⟩
  rw [World.alone]
  dsimp only
  cases halone : ((s.world.engine.runningOf t.workflow).filter (· != t.execution)).isEmpty with
  | true =>
    have hrivals : s.world.rivalsAmong t (table.latest t.deployment settings.window) = [] := by
      rw [World.rivalsAmong, List.isEmpty_iff.mp halone, List.filter_nil]
    obtain ⟨superseded, s', hrun, hadmits⟩ := run_stopAll_admits settings [] s₁
    cases hrun
    rw [hrivals]
    exact .done (hadmits.behind hled)
  | false =>
    have hheld : Tabular.Holds s₁.world.store table := by rwa [hled.world]
    have hqueue : s.faults.latest = s₁.faults.latest := by rw [hled.faults]; rfl
    rw [if_neg Bool.false_ne_true, if_neg Bool.false_ne_true, hqueue]
    have hlatest := (Tabular.agree hheld).latest t.deployment settings.window
    refine (ends_askStore settings (meets_latest t.deployment settings.window) hlatest).bind
      (fun _ _ _ h => h.behind hled) ?_
    rintro rest latest s₂ - ⟨rfl, hled'⟩
    rw [hled.world, hled.faults] at hled'
    obtain ⟨superseded, s', hrun, hadmits⟩ := run_stopAll_admits settings
      (s.world.rivalsAmong t (table.latest t.deployment settings.window)) s₂
    rw [World.rivalsAmong] at hrun
    rw [hrun]
    exact .done (hadmits.behind (hled.trans hled'))

/-! ## Registration -/

/-- What a registration of a change on the given rows leads to. -/
structure Registers (s : Simulation σ) (table : RecordTable) (change : Record.Change)
    (written : List Record) (s' : Simulation σ) : Prop where
  store : Tabular.Holds s'.world.store (table.changeAmong written change)
  engine : s'.world.engine = s.world.engine
  busy : s'.world.busy = s.world.busy
  requested : s'.requested = s.requested

theorem Led.registers {s' : Simulation σ} {store : σ} {faults : Faults} {change : Record.Change}
    {written : List Record} (hled : Led s [] { s.world with store := store } faults s')
    (hstore : Tabular.Holds store (table.changeAmong written change)) :
    Registers s table change written s' where
  store := by rwa [hled.world]
  engine := by rw [hled.world]
  busy := by rw [hled.world]
  requested := by rw [hled.requested, List.append_nil]

/-- Of two registrations in a row the later one tells which rows are written. -/
theorem Registers.trans {s₁ s' : Simulation σ} {change : Record.Change}
    {written further : List Record} (h : Registers s table change written s₁)
    (h' : Registers s₁ table change further s') : Registers s table change further s' where
  store := h'.store
  engine := h'.engine.trans h.engine
  busy := h'.busy.trans h.busy
  requested := h'.requested.trans h.requested

theorem Untouched.registers {s' : Simulation σ} (h : Untouched s s')
    (hstore : Tabular.Holds s.world.store table) (change : Record.Change) :
    Registers s table change [] s' where
  store := by rwa [h.world, RecordTable.changeAmong_nil]
  engine := by rw [h.world]
  busy := by rw [h.world]
  requested := h.requested

variable [Steady σ]

/-- The change of one more row.  A failed attempt may have made it. -/
theorem ends_update {written : List Record} {change : Record.Change} (hkeyed : table.Keyed)
    (h : Tabular.Holds s.world.store (table.changeAmong written change)) {r : Record}
    (hr : r ∈ table.records.values) :
    Ends (fun left _ s' => Registers s table change (written ++ [r]) s' ∧
        s'.faults = { s.faults with update := left })
      (fun _ s' => Registers s table change written s' ∨
        Registers s table change (written ++ [r]) s')
      ((Fault.endure settings.retry s.faults.update).mapError (.store ∘ nameRow r.key))
      (((coordinator settings).askStore
        ((collaborators : Collaborators (Simulation σ)).update r.key change)).run s) := by
  obtain ⟨store, hupdate, hstore⟩ := Tabular.update h (hkeyed.update_changeAmong hr written change)
  have hrun : s.world.update r.key change = (.ok (), { s.world with store := store }) := by
    rw [World.update, hupdate]
  have hcomes := comes_askStore settings (meets_update r.key change)
    (settled_update r.key change s)
  rw [hrun] at hcomes
  refine hcomes.ends.imp ?_ ?_
  · rintro left _ s' ⟨_, hled⟩
    exact ⟨hled.registers hstore, hled.faults⟩
  · rintro e s' ⟨w', ahead, hled, rfl | rfl⟩
    · exact .inl (Led.registers hled h)
    · exact .inr (hled.registers hstore)

/-- The changes of rows, oldest first, behind those that are written already. -/
theorem ends_updateAll {change : Record.Change} (hkeyed : table.Keyed) :
    ∀ (rest written : List Record) (s : Simulation σ),
      Tabular.Holds s.world.store (table.changeAmong written change) →
      (∀ r ∈ rest, r ∈ table.records.values) →
      Ends (fun _ _ s' => Registers s table change (written ++ rest) s' ∧
          s'.faults.isBusy = s.faults.isBusy)
        (fun _ s' => ∃ before, before <+: rest ∧ Registers s table change (written ++ before) s')
        (Fault.endureRows settings.retry (rest.map Record.key) s.faults.update)
        (((coordinator settings).updateAll change (rest.map Record.key)).run s)
  | [], written, s, h, _ => by
      rw [← List.append_nil written] at h
      exact .done ⟨⟨h, rfl, rfl, rfl⟩, rfl⟩
  | r :: rest, written, s, h, hrows => by
      rw [List.map_cons, Fault.endureRows, updateAll]
      refine (ends_update settings hkeyed h (hrows r List.mem_cons_self)).bind ?_ ?_
      · rintro _ s' - (hkept | hwritten)
        · exact ⟨[], List.nil_prefix, by rwa [List.append_nil]⟩
        · exact ⟨[r], List.prefix_cons_inj r |>.mpr List.nil_prefix, hwritten⟩
      · rintro left _ s₁ - ⟨hfirst, hfaults⟩
        have hqueue : left = s₁.faults.update := by rw [hfaults]
        have hrest := ends_updateAll hkeyed rest (written ++ [r]) s₁ hfirst.store
          fun other hother => hrows other (List.mem_cons_of_mem r hother)
        rw [hqueue]
        refine hrest.imp ?_ ?_
        · rintro _ _ s' ⟨hlast, hbusy⟩
          rw [List.append_assoc] at hlast
          exact ⟨hfirst.trans hlast, by rw [hbusy, hfaults]⟩
        · rintro _ s' ⟨before, hbefore, hlast⟩
          rw [List.append_assoc] at hlast
          exact ⟨r :: before, (List.prefix_cons_inj r).mpr hbefore, hfirst.trans hlast⟩

/-- Registration as the faults say.  When it fails, some of the rows are written, the oldest ones. -/
theorem ends_changeRows (h : Tabular.Holds s.world.store table) (object deployment : String)
    (change : Record.Change) :
    Ends (fun _ _ s' => Registers s table change (table.ofObject object deployment) s' ∧
        s'.faults.isBusy = s.faults.isBusy)
      (fun _ s' => ∃ written, written <+: table.ofObject object deployment ∧
        Registers s table change written s')
      (s.faults.registration settings.retry ((table.ofObject object deployment).map Record.key)
        s.faults.ofObject)
      (((coordinator settings).changeRows object deployment change).run s) := by
  have hkeyed := Tabular.keyed h
  refine (ends_ofObject settings h object deployment).bind ?_ ?_
  · rintro _ s' - huntouched
    exact ⟨[], List.nil_prefix, huntouched.registers h change⟩
  · rintro left _ s₁ - ⟨rfl, hled⟩
    have hqueue : s.faults.update = s₁.faults.update := by rw [hled.faults]
    have hbefore := hled.untouched.registers h change
    rw [hqueue]
    have hrows := ends_updateAll settings hkeyed (table.ofObject object deployment) [] s₁
      hbefore.store fun r hr => (RecordTable.mem_ofObject.mp hr).1
    refine hrows.bind ?_ ?_
    · rintro _ s' - ⟨written, hwritten, hregisters⟩
      exact ⟨written, hwritten, hbefore.trans hregisters⟩
    · rintro _ _ s' - ⟨hregisters, hbusy⟩
      exact .done ⟨hbefore.trans hregisters, by rw [hbusy, hled.faults]⟩

/-! ## Probe -/

omit [Tabular σ] [Steady σ] in
/-- The probe as the faults say.  No failure of the stop that may follow is one of the stage. -/
theorem ends_abortIfBusy (target current : String) (s : Simulation σ) :
    Ends (fun _ phase _ => phase = if s.world.isBusy target then .selfAborted else .proceeding)
      (fun _ s' => Untouched s s') (s.faults.probe settings.retry)
      (((coordinator settings).abortIfBusy target current).run s) := by
  refine (ends_askControl settings (meets_isBusy target) rfl).bind (fun _ _ _ h => h) ?_
  rintro left busy s₁ - ⟨rfl, hled⟩
  cases hbusy : s.world.isBusy target with
  | false => exact .done rfl
  | true =>
    obtain ⟨granted, s', engine, hrun, -⟩ := run_requestStop settings current targetBusyCause s₁
    rw [if_pos rfl, if_pos rfl, run_bind_ok hrun]
    exact .done rfl

end Stages

end Simulation

end Rollout
