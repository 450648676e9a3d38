import Rollout.Graph.Links
import Rollout.Graph.Reachability
import Rollout.Plan.Basic

/-!
# Plans as state graphs

Compilation gives every step its transition.  The *successor* of a step is the next step of its
list; the last step of a choice's list inherits the successor of the choice, and the last step of a
plan or of a branch has none and ends its scope.

A choice is followed by the states of its two lists; without a second list it falls through to its
successor, or to an end state of its own, `<name>-End`.  A parallel state is joined by a merge state
`<name>-Merge`, unless its successor is a task of the merge type, which then is the join.  All names
of the whole compilation, the made-up ones included, must differ.
-/

namespace Rollout

/-- The type of merge states unless another is asked for. -/
def defaultMergeType : String := "AttiniMergeOutput"

/-- Compiling threads the names given so far. -/
abbrev Compiling (α : Type) := StateT (List String) (Except PlanError) α

/-- Take a name, which must be new. -/
def takeName (name : String) : Compiling Unit := do
  let taken ← get
  if taken.contains name then throw (.duplicateName name)
  set (name :: taken)

namespace Step

/-- Whether a step is a task of the merge type. -/
def isJoin (mergeType : String) : Step → Bool
  | .task name fields => (Step.task name fields).type? == some mergeType
  | _ => false

/-- The transition to a successor. -/
def handOver : Option Step → Transition
  | some next => .next next.name
  | none => .stop

/-- The name of the first step of a nested list. -/
def firstName (owner : String) (field : StepField) : List Step → Except PlanError String
  | [] => .error (.emptyBranch owner field)
  | first :: _ => .ok first.name

/-- The states that join a parallel step, after the state itself. -/
def join (mergeType : String) (name : String) (branches : List (Scope State))
    (fields : List (String × Json)) (successor : Option Step) : Compiling (List State) := do
  takeName name
  match successor.filter (isJoin mergeType) with
  | some next => return [.parallel name branches fields (some (.next next.name))]
  | none =>
    let merge := name ++ "-Merge"
    takeName merge
    return [.parallel name branches fields (some (.next merge)),
      .merge merge mergeType (some (handOver successor))]

mutual

/-- The states of a step. -/
def compile (mergeType : String) (successor : Option Step) : Step → Compiling (List State)
  | .task name fields => do
    takeName name
    return [.task name fields (some (handOver successor))]
  | .choice name condition whenTrue whenFalse => do
    takeName name
    let trueStart ← firstName name .isTrue whenTrue
    let trueStates ← compileList mergeType successor whenTrue
    let (default, falseStates) ← compileElse mergeType successor name whenFalse
    return .choice name [⟨condition, trueStart⟩] default none :: (trueStates ++ falseStates)
  | .parallel name branches fields => do
    if branches.isEmpty then throw (.emptyBranch name .branches)
    let scopes ← compileBranches mergeType name branches
    join mergeType name scopes fields successor

/-- The states of a list whose last step has the given successor. -/
def compileList (mergeType : String) (successor : Option Step) :
    List Step → Compiling (List State)
  | [] => return []
  | step :: rest => do
    let states ← compile mergeType (rest.head?.or successor) step
    return states ++ (← compileList mergeType successor rest)

/-- Where a choice goes otherwise, and the states for it. -/
def compileElse (mergeType : String) (successor : Option Step) (name : String) :
    Option (List Step) → Compiling (String × List State)
  | some steps => do
    let start ← firstName name .isFalse steps
    return (start, ← compileList mergeType successor steps)
  | none =>
    match successor with
    | some next => return (next.name, [])
    | none => do
      let last := name ++ "-End"
      takeName last
      return (last, [.pass last (some .stop)])

/-- The scopes of branches. -/
def compileBranches (mergeType : String) (owner : String) :
    List (List Step) → Compiling (List (Scope State))
  | [] => return []
  | branch :: rest => do
    let start ← firstName owner .branches branch
    let states ← compileList mergeType none branch
    return ⟨start, states⟩ :: (← compileBranches mergeType owner rest)

end

end Step

namespace Plan

/-- The graph of a plan before its links are checked. -/
def link (mergeType : String) (plan : Plan) : Except PlanError StateGraph :=
  match plan with
  | ⟨first :: rest, _⟩ => do
    let (states, _) ← (Step.compileList mergeType none (first :: rest)).run []
    return ⟨first.name, states⟩

/-- A graph in which nothing dangles and every state is reachable. -/
def checkLinks (g : StateGraph) : Except PlanError StateGraph :=
  match g.danglingReferences with
  | (state, target) :: _ => .error (.danglingReference state target)
  | [] =>
    match g.unreachableStates with
    | name :: _ => .error (.unreachableState name)
    | [] => .ok g

/-- The graph of a plan. -/
def compile (mergeType : String) (plan : Plan) : Except PlanError StateGraph := do
  checkLinks (← plan.link mergeType)

end Plan

end Rollout
