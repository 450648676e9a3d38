import Rollout.Plan.Compilation

/-!
# Places and layout of a plan

What a compilation makes of a plan depends on two things only: the steps and the successor of each.
A *place* is a step together with its successor.  `Step.places` lists the places of a plan at every
depth, the steps of branches included, and every question about names is a question about places.

* The names of a place (`Place.names`) are the name of its step and the name that is made up for it:
  `<name>-Merge` for a parallel step that no task of the merge type joins, `<name>-End` for a choice
  that has neither a second list nor a successor.
* The gaps of a place (`Place.gaps`) are the fields that ought to hold steps and hold none.

The *layout* of a plan is the graph that compilation gives when no name is refused.  It is total:
where a list without steps would have to be entered, the empty name stands for its start.
`Plan.Compiling` proves that compilation gives the layout or a fault.
-/

namespace Rollout

/-! ## Places -/

/-- A step and the step that control goes to behind it. -/
structure Place where
  step : Step
  successor : Option Step

namespace Place

/-- The name that is made up at a place, if there is one. -/
def madeUp (mergeType : String) : Place → List String
  | ⟨.choice name _ _ none, none⟩ => [name ++ "-End"]
  | ⟨.parallel name _ _, successor⟩ =>
    if successor.any (Step.isJoin mergeType) then [] else [name ++ "-Merge"]
  | _ => []

/-- The names that a place gives out. -/
def names (mergeType : String) (p : Place) : List String := p.step.name :: p.madeUp mergeType

/-- The fields of a place that ought to hold steps and hold none. -/
def gaps : Place → List (String × StepField)
  | ⟨.choice name _ whenTrue whenFalse, _⟩ =>
    (if whenTrue.isEmpty then [(name, .isTrue)] else []) ++
      if whenFalse.any List.isEmpty then [(name, .isFalse)] else []
  | ⟨.parallel name branches _, _⟩ =>
    if branches.isEmpty || branches.any List.isEmpty then [(name, .branches)] else []
  | _ => []

end Place

namespace Step

mutual

/-- The places of a step and of the steps inside it. -/
def places (successor : Option Step) : Step → List Place
  | .task name fields => [⟨.task name fields, successor⟩]
  | .choice name condition whenTrue whenFalse =>
    ⟨.choice name condition whenTrue whenFalse, successor⟩ ::
      (placesInList successor whenTrue ++ placesInElse successor whenFalse)
  | .parallel name branches fields =>
    ⟨.parallel name branches fields, successor⟩ :: placesInBranches branches

/-- The places of a list whose last step has the given successor. -/
def placesInList (successor : Option Step) : List Step → List Place
  | [] => []
  | step :: rest => places (rest.head?.or successor) step ++ placesInList successor rest

/-- The places of the second list of a choice. -/
def placesInElse (successor : Option Step) : Option (List Step) → List Place
  | some steps => placesInList successor steps
  | none => []

/-- The places of branches, the last step of a branch having no successor. -/
def placesInBranches : List (List Step) → List Place
  | [] => []
  | branch :: rest => placesInList none branch ++ placesInBranches rest

end

/-! ## Layout -/

/-- The name of the first step of a list. -/
def startName : List Step → String
  | [] => ""
  | first :: _ => first.name

/-- Where a choice goes otherwise. -/
def elseName (successor : Option Step) (name : String) : Option (List Step) → String
  | some steps => startName steps
  | none =>
    match successor with
    | some next => next.name
    | none => name ++ "-End"

/-- A parallel state, and the merge state behind it unless its successor joins the branches. -/
def joined (mergeType : String) (name : String) (branches : List (Scope State))
    (fields : List (String × Json)) (successor : Option Step) : List State :=
  match successor.filter (isJoin mergeType) with
  | some next => [.parallel name branches fields (some (.next next.name))]
  | none =>
    [.parallel name branches fields (some (.next (name ++ "-Merge"))),
      .merge (name ++ "-Merge") mergeType (some (handOver successor))]

mutual

/-- The states that a step is laid out as. -/
def layout (mergeType : String) (successor : Option Step) : Step → List State
  | .task name fields => [.task name fields (some (handOver successor))]
  | .choice name condition whenTrue whenFalse =>
    .choice name [⟨condition, startName whenTrue⟩] (elseName successor name whenFalse) none ::
      (layoutList mergeType successor whenTrue ++ layoutElse mergeType successor name whenFalse)
  | .parallel name branches fields =>
    joined mergeType name (layoutBranches mergeType branches) fields successor

/-- The states of a list whose last step has the given successor. -/
def layoutList (mergeType : String) (successor : Option Step) : List Step → List State
  | [] => []
  | step :: rest =>
    layout mergeType (rest.head?.or successor) step ++ layoutList mergeType successor rest

/-- The states for the case that a condition does not hold. -/
def layoutElse (mergeType : String) (successor : Option Step) (name : String) :
    Option (List Step) → List State
  | some steps => layoutList mergeType successor steps
  | none =>
    match successor with
    | some _ => []
    | none => [.pass (name ++ "-End") (some .stop)]

/-- The scopes of branches. -/
def layoutBranches (mergeType : String) : List (List Step) → List (Scope State)
  | [] => []
  | branch :: rest =>
    ⟨startName branch, layoutList mergeType none branch⟩ :: layoutBranches mergeType rest

end

/-- The scope that a list of steps is laid out as. -/
def layoutScope (mergeType : String) (steps : List Step) : StateGraph :=
  ⟨startName steps, layoutList mergeType none steps⟩

end Step

namespace Place

/-- The state that the step of a place is laid out as, in front of those of its lists and its
join. -/
def state (mergeType : String) : Place → State
  | ⟨.task name fields, successor⟩ => .task name fields (some (Step.handOver successor))
  | ⟨.choice name condition whenTrue whenFalse, successor⟩ =>
    .choice name [⟨condition, Step.startName whenTrue⟩] (Step.elseName successor name whenFalse)
      none
  | ⟨.parallel name lists fields, successor⟩ =>
    .parallel name (Step.layoutBranches mergeType lists) fields
      (some (.next ((successor.filter (Step.isJoin mergeType)).elim (name ++ "-Merge") Step.name)))

@[simp] theorem name_state (mergeType : String) : ∀ p : Place,
    (p.state mergeType).name = p.step.name
  | ⟨.task .., _⟩ => rfl
  | ⟨.choice .., _⟩ => rfl
  | ⟨.parallel .., _⟩ => rfl

end Place

namespace Step

/-- A step is laid out as its state and further ones. -/
theorem layout_eq_cons (mergeType : String) (successor : Option Step) (step : Step) :
    ∃ rest, layout mergeType successor step = Place.state mergeType ⟨step, successor⟩ :: rest := by
  cases step with
  | task name fields => exact ⟨_, rfl⟩
  | choice name condition whenTrue whenFalse => exact ⟨_, rfl⟩
  | parallel name branches fields =>
    rw [layout, joined, Place.state]
    cases successor.filter (isJoin mergeType) with
    | some next => exact ⟨_, rfl⟩
    | none => exact ⟨_, rfl⟩

/-! ## Names and gaps of lists of places -/

/-- A parallel step has a name made up for it unless its successor joins the branches. -/
theorem madeUp_parallel (mergeType name : String) (branches : List (List Step))
    (fields : List (String × Json)) (successor : Option Step) :
    Place.madeUp mergeType ⟨.parallel name branches fields, successor⟩ =
      (successor.filter (isJoin mergeType)).elim [name ++ "-Merge"] fun _ => [] := by
  cases successor with
  | none => rfl
  | some next => cases h : isJoin mergeType next <;> simp [Place.madeUp, Option.filter, h]

/-- The names that places give out, place by place. -/
def namesAt (mergeType : String) (places : List Place) : List String :=
  places.flatMap (Place.names mergeType)

/-- The gaps of places. -/
def gapsAt (places : List Place) : List (String × StepField) := places.flatMap Place.gaps

@[simp] theorem namesAt_cons (mergeType : String) (p : Place) (ps : List Place) :
    namesAt mergeType (p :: ps) = p.names mergeType ++ namesAt mergeType ps := rfl

@[simp] theorem namesAt_append (mergeType : String) (ps qs : List Place) :
    namesAt mergeType (ps ++ qs) = namesAt mergeType ps ++ namesAt mergeType qs := by
  simp [namesAt]

@[simp] theorem gapsAt_cons (p : Place) (ps : List Place) :
    gapsAt (p :: ps) = p.gaps ++ gapsAt ps := rfl

@[simp] theorem gapsAt_append (ps qs : List Place) :
    gapsAt (ps ++ qs) = gapsAt ps ++ gapsAt qs := by
  simp [gapsAt]

end Step

namespace Plan

/-- The places of a plan at every depth. -/
def places (plan : Plan) : List Place := Step.placesInList none plan.steps

/-- All names of a compilation of the plan: the names of all steps at every depth, and those that
are made up for merge and end states. -/
def names (mergeType : String) (plan : Plan) : List String := Step.namesAt mergeType plan.places

/-- The fields of the plan that ought to hold steps and hold none. -/
def gaps (plan : Plan) : List (String × StepField) := Step.gapsAt plan.places

/-- The graph that the plan is laid out as. -/
def layout (mergeType : String) (plan : Plan) : StateGraph := Step.layoutScope mergeType plan.steps

end Plan

end Rollout
