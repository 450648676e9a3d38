import Rollout.Proofs.Plan.Links

/-!
# Runs of compiled plans

An authored plan has a meaning without any graph.  Its *trace* lists the steps in the authored
order, taking one list of each choice as the conditions hold, and holds a trace of its own for each
branch of a parallel step.

A graph is run by following its links.  `Runs` is the relation between a scope, the name to start at
and what a run to the end records: a state is looked up by its name, contributes its event unless it
is synthetic, and hands over to the next name or ends the run.  A run of a parallel state holds runs
of its branches, each in its own scope.  A derivation of `Runs` is a finite run that ends.

`runs_layoutList` simulates the authored steps by the graph.  What comes behind a list of steps is a
parameter, the rest of the run from the successor (`Continues`), so the successor that the last step
of a nested list inherits needs no thought.  Runs are unique (`Runs.unique`).  Together,
`Plan.runs_iff_trace` says that a compiled graph records the trace of its plan and nothing else.
-/

namespace Rollout

/-! ## Events and traces -/

/-- What is recorded of a step or of a state. -/
inductive Event where
  | task (name : String) (fields : List (String × Json))
  | choice (name : String) (condition : List (String × Json))
  | parallel (name : String) (fields : List (String × Json)) (branches : List (List Event))

namespace Step

mutual

/-- The events of a step, where `holds` tells of each choice whether its condition holds. -/
def trace (holds : String → Bool) : Step → List Event
  | .task name fields => [.task name fields]
  | .choice name condition whenTrue whenFalse =>
    .choice name condition ::
      if holds name then traceList holds whenTrue else traceElse holds whenFalse
  | .parallel name branches fields => [.parallel name fields (traceBranches holds branches)]

/-- The events of the steps in order. -/
def traceList (holds : String → Bool) : List Step → List Event
  | [] => []
  | step :: rest => trace holds step ++ traceList holds rest

/-- The events of the second list of a choice, if there is one. -/
def traceElse (holds : String → Bool) : Option (List Step) → List Event
  | some steps => traceList holds steps
  | none => []

/-- The events of each branch. -/
def traceBranches (holds : String → Bool) : List (List Step) → List (List Event)
  | [] => []
  | branch :: rest => traceList holds branch :: traceBranches holds rest

end

end Step

/-- The events of a plan. -/
def Plan.trace (holds : String → Bool) (plan : Plan) : List Event :=
  Step.traceList holds plan.steps

/-! ## Runs of graphs -/

/-- Where control goes behind a state: a choice follows its first rule if its condition holds and
its default otherwise, every other state its transition. -/
def State.onward (holds : String → Bool) : State → Option Transition
  | .choice name (rule :: _) default _ => some (.next (if holds name then rule.next else default))
  | .choice _ [] _ _ => none
  | s => s.transition?

theorem State.onward_of_holds {holds : String → Bool} {name default : String} {rule : Rule}
    {rules : List Rule} {t : Option Transition} (h : holds name = true) :
    (State.choice name (rule :: rules) default t).onward holds = some (.next rule.next) := by
  rw [State.onward, h]
  rfl

theorem State.onward_of_not_holds {holds : String → Bool} {name default : String} {rule : Rule}
    {rules : List Rule} {t : Option Transition} (h : holds name = false) :
    (State.choice name (rule :: rules) default t).onward holds = some (.next default) := by
  rw [State.onward, h]
  rfl

mutual

/-- What a state records. -/
inductive Records (holds : String → Bool) : State → List Event → Prop where
  | task {name : String} {fields : List (String × Json)} {t : Option Transition} :
    Records holds (.task name fields t) [.task name fields]
  | choice {name default : String} {rule : Rule} {rules : List Rule} {t : Option Transition} :
    Records holds (.choice name (rule :: rules) default t) [.choice name rule.condition]
  | parallel {name : String} {branches : List StateGraph} {fields : List (String × Json)}
      {t : Option Transition} {traces : List (List Event)} (h : RunsAll holds branches traces) :
    Records holds (.parallel name branches fields t) [.parallel name fields traces]
  | merge {name type : String} {t : Option Transition} : Records holds (.merge name type t) []
  | pass {name : String} {t : Option Transition} : Records holds (.pass name t) []

/-- A run of a scope from the state of a name to the end, with what it records. -/
inductive Runs (holds : String → Bool) : StateGraph → String → List Event → Prop where
  | stop {g : StateGraph} {name : String} {s : State} {events : List Event}
      (hget : g.get? name = some s) (hrec : Records holds s events)
      (honward : s.onward holds = some .stop) :
    Runs holds g name events
  | next {g : StateGraph} {name target : String} {s : State} {events rest : List Event}
      (hget : g.get? name = some s) (hrec : Records holds s events)
      (honward : s.onward holds = some (.next target)) (hrest : Runs holds g target rest) :
    Runs holds g name (events ++ rest)

/-- A run of each branch from its start. -/
inductive RunsAll (holds : String → Bool) : List StateGraph → List (List Event) → Prop where
  | nil : RunsAll holds [] []
  | cons {g : StateGraph} {branches : List StateGraph} {events : List Event}
      {traces : List (List Event)} (h : Runs holds g g.startAt events)
      (hrest : RunsAll holds branches traces) :
    RunsAll holds (g :: branches) (events :: traces)

end

/-! ## Runs are unique -/

mutual

theorem Records.unique {holds : String → Bool} : ∀ {s : State} {events events' : List Event},
    Records holds s events → Records holds s events' → events = events'
  | _, _, _, .task, h' => by cases h'; rfl
  | _, _, _, .choice, h' => by cases h'; rfl
  | _, _, _, .parallel h, h' => by
      cases h' with
      | parallel h' => rw [RunsAll.unique h h']
  | _, _, _, .merge, h' => by cases h'; rfl
  | _, _, _, .pass, h' => by cases h'; rfl

theorem Runs.unique {holds : String → Bool} :
    ∀ {g : StateGraph} {name : String} {events events' : List Event},
      Runs holds g name events → Runs holds g name events' → events = events'
  | _, _, _, _, .stop hget hrec honward, h' => by
      cases h' with
      | stop hget' hrec' _ =>
        obtain rfl := Option.some.inj (hget.symm.trans hget')
        exact hrec.unique hrec'
      | next hget' _ honward' _ =>
        obtain rfl := Option.some.inj (hget.symm.trans hget')
        cases honward.symm.trans honward'
  | _, _, _, _, .next hget hrec honward hrest, h' => by
      cases h' with
      | stop hget' _ honward' =>
        obtain rfl := Option.some.inj (hget.symm.trans hget')
        cases honward.symm.trans honward'
      | next hget' hrec' honward' hrest' =>
        obtain rfl := Option.some.inj (hget.symm.trans hget')
        obtain rfl := Transition.next.inj (Option.some.inj (honward.symm.trans honward'))
        rw [hrec.unique hrec', hrest.unique hrest']

theorem RunsAll.unique {holds : String → Bool} :
    ∀ {branches : List StateGraph} {traces traces' : List (List Event)},
      RunsAll holds branches traces → RunsAll holds branches traces' → traces = traces'
  | _, _, _, .nil, h' => by cases h'; rfl
  | _, _, _, .cons h hrest, h' => by
      cases h' with
      | cons h' hrest' => rw [h.unique h', hrest.unique hrest']

end

/-! ## The graph follows the steps -/

/-- What a run records behind a list of steps: the rest of the run from the successor, or nothing
where the scope ends. -/
inductive Continues (holds : String → Bool) (g : StateGraph) : Option Step → List Event → Prop where
  | onward {next : Step} {rest : List Event} (h : Runs holds g next.name rest) :
    Continues holds g (some next) rest
  | ended : Continues holds g none []

/-- A state that hands over to the successor. -/
theorem Continues.runs {holds : String → Bool} {g : StateGraph} {successor : Option Step}
    {rest events : List Event} {s : State} (hk : Continues holds g successor rest)
    (hget : g.get? s.name = some s) (hrec : Records holds s events)
    (honward : s.onward holds = some (Step.handOver successor)) :
    Runs holds g s.name (events ++ rest) := by
  cases hk with
  | onward h => exact .next hget hrec honward h
  | ended =>
    rw [List.append_nil]
    exact .stop hget hrec honward

namespace Step

variable {mergeType : String} {holds : String → Bool}

theorem runs_joined {g : StateGraph} {name : String} {scopes : List StateGraph}
    {fields : List (String × Json)} {successor : Option Step} {traces : List (List Event)}
    {rest : List Event}
    (hin : ∀ s ∈ joined mergeType name scopes fields successor, g.get? s.name = some s)
    (hk : Continues holds g successor rest) (h : RunsAll holds scopes traces) :
    Runs holds g name (.parallel name fields traces :: rest) := by
  rw [joined] at hin
  split at hin
  · rename_i next hs
    obtain ⟨rfl, -⟩ := Option.filter_eq_some_iff.mp hs
    exact hk.runs (hin _ List.mem_cons_self) (.parallel h) rfl
  · have hmerge := hk.runs (hin _ (List.mem_cons_of_mem _ List.mem_cons_self)) .merge rfl
    exact .next (hin _ List.mem_cons_self) (.parallel h) rfl hmerge

mutual

theorem runs_layout : ∀ {g : StateGraph} {successor : Option Step} {step : Step}
    {rest : List Event}, Sound mergeType (places successor step) →
    (∀ s ∈ layout mergeType successor step, g.get? s.name = some s) →
    Continues holds g successor rest → Runs holds g step.name (trace holds step ++ rest)
  | _, _, .task name fields, _, _, hin, hk => by
      rw [layout] at hin
      exact hk.runs (hin _ List.mem_cons_self) .task rfl
  | _, successor, .choice name condition whenTrue whenFalse, rest, h, hin, hk => by
      rw [places] at h
      rw [layout] at hin
      have hself := hin _ List.mem_cons_self
      have hthen := runs_layoutList (Place.whenTrue_ne_nil h.head) h.tail.left
        (fun s hs => hin s (List.mem_cons_of_mem _ (List.mem_append_left _ hs))) hk
      have helse := runs_layoutElse h.head h.tail.right
        (fun s hs => hin s (List.mem_cons_of_mem _ (List.mem_append_right _ hs))) hk
      rw [trace, List.cons_append]
      cases hholds : holds name with
      | true => exact Runs.next hself Records.choice (State.onward_of_holds hholds) hthen
      | false => exact Runs.next hself Records.choice (State.onward_of_not_holds hholds) helse
  | _, _, .parallel name branches fields, _, h, hin, hk => by
      rw [places] at h
      rw [layout] at hin
      exact runs_joined hin hk (runsAll_layoutBranches (Place.branch_ne_nil h.head) h.tail)

theorem runs_layoutList : ∀ {g : StateGraph} {successor : Option Step} {steps : List Step}
    {rest : List Event}, steps ≠ [] → Sound mergeType (placesInList successor steps) →
    (∀ s ∈ layoutList mergeType successor steps, g.get? s.name = some s) →
    Continues holds g successor rest →
    Runs holds g (startName steps) (traceList holds steps ++ rest)
  | _, _, [], _, hne, _, _, _ => absurd rfl hne
  | _, successor, step :: more, rest, _, h, hin, hk => by
      rw [placesInList] at h
      rw [layoutList] at hin
      rw [startName, traceList, List.append_assoc]
      refine runs_layout h.left (fun s hs => hin s (List.mem_append_left _ hs)) ?_
      cases more with
      | nil => exact hk
      | cons next more =>
        exact .onward (runs_layoutList (List.cons_ne_nil next more) h.right
          (fun s hs => hin s (List.mem_append_right _ hs)) hk)

theorem runs_layoutElse : ∀ {g : StateGraph} {successor : Option Step} {name : String}
    {condition : List (String × Json)} {whenTrue : List Step} {whenFalse : Option (List Step)}
    {rest : List Event},
    Place.gaps ⟨.choice name condition whenTrue whenFalse, successor⟩ = [] →
    Sound mergeType (placesInElse successor whenFalse) →
    (∀ s ∈ layoutElse mergeType successor name whenFalse, g.get? s.name = some s) →
    Continues holds g successor rest →
    Runs holds g (elseName successor name whenFalse) (traceElse holds whenFalse ++ rest)
  | _, _, _, _, _, some _, _, hgaps, h, hin, hk =>
      runs_layoutList (Place.whenFalse_ne_nil hgaps) h hin hk
  | _, some _, _, _, _, none, _, _, _, _, .onward hrun => hrun
  | _, none, _, _, _, none, _, _, _, hin, .ended =>
      .stop (hin _ List.mem_cons_self) .pass rfl

theorem runsAll_layoutBranches : ∀ {branches : List (List Step)},
    (∀ branch ∈ branches, branch ≠ []) → Sound mergeType (placesInBranches branches) →
    RunsAll holds (layoutBranches mergeType branches) (traceBranches holds branches)
  | [], _, _ => .nil
  | branch :: rest, hne, h => by
      rw [placesInBranches] at h
      rw [layoutBranches, traceBranches]
      have hrun := runs_layoutList (g := layoutScope mergeType branch)
        (hne branch List.mem_cons_self) h.left
        (fun s hs => StateGraph.get?_of_mem (layoutScope_names_nodup h.left) hs) .ended
      rw [List.append_nil] at hrun
      exact .cons hrun (runsAll_layoutBranches
        (fun b hb => hne b (List.mem_cons_of_mem _ hb)) h.right)

end

end Step

namespace Plan

/-- A run of a compiled graph ends, and records the trace of the plan: every step of the lists that
are taken, in the authored order, none left out and none repeated. -/
theorem runs_iff_trace {mergeType : String} {plan : Plan} {g : StateGraph}
    (h : plan.compile mergeType = .ok g) (holds : String → Bool) (events : List Event) :
    Runs holds g g.startAt events ↔ events = plan.trace holds := by
  rw [compile_eq_link] at h
  obtain ⟨rfl, hgaps, hnames⟩ := link_ok h
  have hsound : Sound mergeType (Step.placesInList none plan.steps) := ⟨hgaps, hnames⟩
  have hrun : Runs holds (plan.layout mergeType) (plan.layout mergeType).startAt
      (plan.trace holds) := by
    rw [← List.append_nil (plan.trace holds)]
    exact Step.runs_layoutList plan.nonempty hsound
      (fun s hs => StateGraph.get?_of_mem (Step.layoutScope_names_nodup hsound) hs) .ended
  constructor
  · intro h'
    exact h'.unique hrun
  · rintro rfl
    exact hrun

/-- A choice over a parallel step, whose last branch ends in a choice, in front of a task of the
merge type. -/
def nested : Plan where
  steps := [
    .choice "C" [] [.parallel "P" [[.task "A" []], [.choice "D" [] [.task "B" []] none]] []] none,
    .ofType "J" "Join"]
  nonempty := List.cons_ne_nil _ _

theorem runs_nested :
    nested.compile "Join" = .ok (nested.layout "Join") ∧
      ∀ events, Runs (· == "C") (nested.layout "Join") "C" events ↔
        events = [.choice "C" [], .parallel "P" [] [[.task "A" []], [.choice "D" []]],
          .task "J" [("Type", .string "Join")]] :=
  have h : nested.compile "Join" = .ok (nested.layout "Join") := by rfl
  ⟨h, runs_iff_trace h (· == "C")⟩

end Plan

end Rollout
