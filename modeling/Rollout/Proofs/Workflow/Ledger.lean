import Rollout.Proofs.Workflow.Engine

/-!
# The books of an engine

An engine that starts with nothing to run and serves requests keeps no history, and yet all it shows
can be told from what happened: its running executions are the starts that no granted stop of the
same execution followed, its stops are those that were granted, and a further stop is granted exactly
to an execution whose stops are not refused and that was started since it was last stopped
(`Engine.books_balance`).

A run is told by its `Engine.Event`s, oldest first, so that what follows an event stands behind it.
One more event adds its own start and strikes out the starts of the execution that it stops
(`Engine.unended_append`); that is the step on which `Engine.Balanced` is carried through a run.
-/

namespace Rollout

namespace Engine

/-! ## Requests and events -/

/-- What an engine can be asked. -/
inductive Request where
  | start (workflow execution : String)
  | refuseStops (execution : String)
  | stop (execution cause : String)

/-- What came of a request. -/
inductive Event where
  | started (workflow execution : String)
  /-- From now on stops of the execution are refused. -/
  | shielded (execution : String)
  | stopped (execution cause : String)
  | declined (execution cause : String) (reason : ControlError)

namespace Event

/-- The request that led to an event. -/
def request : Event → Request
  | .started workflow execution => .start workflow execution
  | .shielded execution => .refuseStops execution
  | .stopped execution cause => .stop execution cause
  | .declined execution cause _ => .stop execution cause

/-- The stop that was granted. -/
def stop? : Event → Option Stop
  | .stopped execution cause => some ⟨execution, cause⟩
  | _ => none

/-- Whether a stop of the execution was granted. -/
def stops (execution : String) : Event → Bool
  | .stopped other _ => other == execution
  | _ => false

theorem stops_iff {execution : String} {event : Event} :
    event.stops execution = true ↔ ∃ cause, event = .stopped execution cause := by
  cases event <;> simp [stops]

end Event

/-- Serve a request: what comes of it, and the engine after it. -/
def serve (e : Engine) : Request → Event × Engine
  | .start workflow execution => (.started workflow execution, e.start workflow execution)
  | .refuseStops execution => (.shielded execution, e.refuseStops execution)
  | .stop execution cause =>
    match e.stop execution cause with
    | .ok e' => (.stopped execution cause, e')
    | .error reason => (.declined execution cause reason, e)

/-- Serve requests one after the other. -/
def serveAll : List Request → Engine → List Event × Engine
  | [], e => ([], e)
  | request :: rest, e =>
    ((e.serve request).1 :: (serveAll rest (e.serve request).2).1,
      (serveAll rest (e.serve request).2).2)

theorem serve_stop_of_stoppable {e : Engine} {execution : String} (cause : String)
    (h : e.Stoppable execution) :
    e.serve (.stop execution cause) = (.stopped execution cause, e.stopped execution cause) := by
  rw [serve, stop_ok_iff.mpr ⟨h, rfl⟩]

theorem serve_stop_of_not_stoppable {e : Engine} {execution : String} (cause : String)
    (h : ¬ e.Stoppable execution) :
    ∃ reason, e.serve (.stop execution cause) = (.declined execution cause reason, e) := by
  rw [serve]
  cases hstop : e.stop execution cause with
  | ok e' => exact absurd (stop_ok_iff.mp hstop).1 h
  | error reason => exact ⟨reason, rfl⟩

theorem request_serve (e : Engine) (request : Request) : (e.serve request).1.request = request := by
  cases request with
  | start workflow execution => rfl
  | refuseStops execution => rfl
  | stop execution cause =>
    by_cases h : e.Stoppable execution
    · rw [serve_stop_of_stoppable cause h]
      rfl
    · obtain ⟨reason, hserve⟩ := serve_stop_of_not_stoppable cause h
      rw [hserve]
      rfl

/-- Every request of a run has its event. -/
theorem map_request_serveAll (requests : List Request) (e : Engine) :
    (serveAll requests e).1.map Event.request = requests := by
  induction requests generalizing e with
  | nil => rfl
  | cons request rest ih =>
    rw [serveAll, List.map_cons, request_serve, ih]

/-! ## What the events tell -/

/-- The execution was started, and no stop of it was granted since. -/
def Live (execution : String) (events : List Event) : Prop :=
  ∃ earlier workflow later, events = earlier ++ .started workflow execution :: later ∧
    ∀ cause, .stopped execution cause ∉ later

/-- The starts of a workflow in their order, but for those that a granted stop of the same execution
followed. -/
def unended (workflow : String) : List Event → List String
  | [] => []
  | .started other execution :: later =>
    if other = workflow ∧ later.any (Event.stops execution) = false then
      execution :: unended workflow later
    else unended workflow later
  | _ :: later => unended workflow later

/-- A stop ends both starts before it, and none behind it. -/
example : unended "deploy" [.started "deploy" "a", .started "repair" "a", .started "deploy" "b",
    .stopped "a" "obsolete", .started "deploy" "a"] = ["b", "a"] := by
  decide

theorem any_stops_eq_false_iff {execution : String} {events : List Event} :
    events.any (Event.stops execution) = false ↔ ∀ cause, .stopped execution cause ∉ events := by
  rw [List.any_eq_false]
  constructor
  · intro h cause hmem
    exact h _ hmem (Event.stops_iff.mpr ⟨cause, rfl⟩)
  · intro h event hmem hstops
    obtain ⟨cause, rfl⟩ := Event.stops_iff.mp hstops
    exact h cause hmem

/-- One more event adds its start and strikes out those of the execution that it stops. -/
theorem unended_append (workflow : String) (events : List Event) (event : Event) :
    unended workflow (events ++ [event]) =
      (unended workflow events).filter (!event.stops ·) ++ unended workflow [event] := by
  induction events with
  | nil => rfl
  | cons first later ih =>
    cases first with
    | started other execution =>
      rw [List.cons_append, unended, unended, ih, List.any_append]
      by_cases hlater : other = workflow ∧ later.any (Event.stops execution) = false
      · rw [if_pos hlater]
        cases hevent : event.stops execution <;> simp [hlater, hevent]
      · have hboth : ¬ (other = workflow ∧
            (later.any (Event.stops execution) || [event].any (Event.stops execution)) = false) :=
          fun h => hlater ⟨h.1, (Bool.or_eq_false_iff.mp h.2).1⟩
        rw [if_neg hlater, if_neg hboth]
    | shielded execution => exact ih
    | stopped execution cause => exact ih
    | declined execution cause reason => exact ih

theorem mem_unended {workflow execution : String} {events : List Event} :
    execution ∈ unended workflow events ↔
      ∃ earlier later, events = earlier ++ .started workflow execution :: later ∧
        ∀ cause, .stopped execution cause ∉ later := by
  induction events with
  | nil => simp [unended]
  | cons first later ih =>
    have hskip : (∃ earlier behind, later = earlier ++ .started workflow execution :: behind ∧
          ∀ cause, .stopped execution cause ∉ behind) →
        ∃ earlier behind, first :: later = earlier ++ .started workflow execution :: behind ∧
          ∀ cause, .stopped execution cause ∉ behind := by
      rintro ⟨earlier, behind, rfl, hbehind⟩
      exact ⟨first :: earlier, behind, rfl, hbehind⟩
    constructor
    · intro hmem
      cases first with
      | started other x =>
        rw [unended] at hmem
        split at hmem
        next h =>
          obtain ⟨rfl, hlater⟩ := h
          rcases List.mem_cons.mp hmem with rfl | hmem
          · exact ⟨[], later, rfl, any_stops_eq_false_iff.mp hlater⟩
          · exact hskip (ih.mp hmem)
        next => exact hskip (ih.mp hmem)
      | shielded x => exact hskip (ih.mp hmem)
      | stopped x cause => exact hskip (ih.mp hmem)
      | declined x cause reason => exact hskip (ih.mp hmem)
    · rintro ⟨earlier, behind, hevents, hbehind⟩
      cases earlier with
      | nil =>
        obtain ⟨rfl, rfl⟩ := List.cons.inj hevents
        rw [unended, if_pos ⟨rfl, any_stops_eq_false_iff.mpr hbehind⟩]
        exact List.mem_cons_self
      | cons event earlier =>
        obtain ⟨rfl, rfl⟩ := List.cons.inj hevents
        have hmem := ih.mpr ⟨earlier, behind, rfl, hbehind⟩
        cases first with
        | started other x =>
          rw [unended]
          split
          next => exact List.mem_cons_of_mem _ hmem
          next => exact hmem
        | shielded x => exact hmem
        | stopped x cause => exact hmem
        | declined x cause reason => exact hmem

theorem live_iff {execution : String} {events : List Event} :
    Live execution events ↔ ∃ workflow, execution ∈ unended workflow events := by
  simp only [Live, mem_unended]
  constructor
  · rintro ⟨earlier, workflow, later, h⟩
    exact ⟨workflow, earlier, later, h⟩
  · rintro ⟨workflow, earlier, later, h⟩
    exact ⟨earlier, workflow, later, h⟩

/-- An event that is no stop strikes nothing out. -/
theorem unended_append_of_stop?_eq_none (workflow : String) (events : List Event) {event : Event}
    (h : event.stop? = none) :
    unended workflow (events ++ [event]) = unended workflow events ++ unended workflow [event] := by
  have hstops : ∀ execution, event.stops execution = false := by
    cases event with
    | stopped execution cause => cases h
    | _ => exact fun _ => rfl
  rw [unended_append]
  simp [hstops]

/-! ## Balanced books -/

/-- What an engine keeps is what the events tell. -/
structure Balanced (events : List Event) (e : Engine) : Prop where
  runningOf : ∀ workflow, e.runningOf workflow = unended workflow events
  stops : e.stops = events.filterMap Event.stop?
  refused : ∀ execution, execution ∈ e.refused ↔ .shielded execution ∈ events

namespace Balanced

variable {events : List Event} {e : Engine}

theorem isRunning_iff (h : Balanced events e) {execution : String} :
    e.isRunning execution = true ↔ Live execution events := by
  simp only [Engine.isRunning_iff, live_iff, h.runningOf]

theorem stoppable_iff (h : Balanced events e) {execution : String} :
    e.Stoppable execution ↔ .shielded execution ∉ events ∧ Live execution events := by
  rw [Stoppable, h.refused, h.isRunning_iff]

/-- A request keeps the books. -/
theorem serve (h : Balanced events e) (request : Request) :
    Balanced (events ++ [(e.serve request).1]) (e.serve request).2 := by
  cases request with
  | start workflow execution =>
    refine ⟨fun other => ?_, ?_, fun x => ?_⟩
    · show (e.start workflow execution).runningOf other = _
      rw [unended_append_of_stop?_eq_none other events rfl, ← h.runningOf, runningOf_start]
      by_cases hother : other = workflow
      · simp [Engine.serve, unended, hother]
      · simp [Engine.serve, unended, hother, Ne.symm hother]
    · rw [List.filterMap_append, ← h.stops]
      exact (List.append_nil _).symm
    · simp [Engine.serve, start, h.refused]
  | refuseStops execution =>
    refine ⟨fun other => ?_, ?_, fun x => ?_⟩
    · rw [unended_append_of_stop?_eq_none other events rfl, ← h.runningOf]
      exact (List.append_nil _).symm
    · rw [List.filterMap_append, ← h.stops]
      exact (List.append_nil _).symm
    · simp [Engine.serve, refuseStops, h.refused, or_comm]
  | stop execution cause =>
    by_cases hstop : e.Stoppable execution
    · rw [serve_stop_of_stoppable cause hstop]
      refine ⟨fun other => ?_, ?_, fun x => ?_⟩
      · rw [unended_append, runningOf_stopped, h.runningOf]
        refine .trans (List.filter_congr fun x _ => ?_) (List.append_nil _).symm
        rw [Event.stops, bne, BEq.comm]
      · rw [List.filterMap_append, ← h.stops]
        rfl
      · simp [stopped, h.refused]
    · obtain ⟨reason, hserve⟩ := serve_stop_of_not_stoppable cause hstop
      rw [hserve]
      refine ⟨fun other => ?_, ?_, fun x => ?_⟩
      · rw [unended_append_of_stop?_eq_none other events rfl, ← h.runningOf]
        exact (List.append_nil _).symm
      · rw [List.filterMap_append, ← h.stops]
        exact (List.append_nil _).symm
      · simp [h.refused]

/-- So does a run of requests. -/
theorem serveAll (h : Balanced events e) (requests : List Request) :
    Balanced (events ++ (serveAll requests e).1) (serveAll requests e).2 := by
  induction requests generalizing events e with
  | nil =>
    rw [Engine.serveAll, List.append_nil]
    exact h
  | cons request rest ih =>
    have hrest := ih (h.serve request)
    rwa [List.append_assoc] at hrest

end Balanced

/-- The events of a run, one for each request, tell what the engine shows at the end and what a
further stop comes to.  Every point of a run is the end of a shorter one. -/
theorem books_balance (requests : List Request) :
    ∃ events e, serveAll requests {} = (events, e) ∧ events.map Event.request = requests ∧
      (∀ workflow, e.runningOf workflow = unended workflow events) ∧
      (∀ execution, e.isRunning execution = true ↔ Live execution events) ∧
      e.stops = events.filterMap Event.stop? ∧
      ∀ execution cause,
        (.shielded execution ∉ events ∧ Live execution events →
          ∃ e', e.serve (.stop execution cause) = (.stopped execution cause, e')) ∧
        (¬ (.shielded execution ∉ events ∧ Live execution events) →
          ∃ reason, e.serve (.stop execution cause) = (.declined execution cause reason, e)) := by
  have hinitial : Balanced [] {} := ⟨fun _ => rfl, rfl, fun _ => by simp⟩
  have hbalanced := hinitial.serveAll requests
  refine ⟨_, _, rfl, map_request_serveAll requests {}, hbalanced.runningOf,
    fun _ => hbalanced.isRunning_iff, hbalanced.stops, fun execution cause => ?_⟩
  rw [← List.nil_append (serveAll requests {}).1, ← hbalanced.stoppable_iff]
  exact ⟨fun h => ⟨_, serve_stop_of_stoppable cause h⟩, serve_stop_of_not_stoppable cause⟩

end Engine

end Rollout
