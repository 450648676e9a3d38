import Rollout.Graph.Basic

/-!
# Dangling references

A reference dangles when its own scope has no state of the name.  The start name counts as a
reference of a state called `StartAt`.
-/

namespace Rollout

namespace State

mutual

/-- The references inside the branches of a state that dangle. -/
def danglingInside : State → List (String × String)
  | .parallel _ branches _ _ => danglingInBranches branches
  | _ => []

/-- The references of states that dangle in a scope of the given names, each state before what is
inside it. -/
def danglingInStates (scope : List String) : List State → List (String × String)
  | [] => []
  | s :: rest =>
    (s.targets.filter fun target => !scope.contains target).map (fun target => (s.name, target)) ++
      (s.danglingInside ++ danglingInStates scope rest)

/-- The references of a scope that dangle, its start first. -/
def danglingInScope : Scope State → List (String × String)
  | ⟨startAt, states⟩ =>
    let scope := states.map name
    (if scope.contains startAt then [] else [("StartAt", startAt)]) ++
      danglingInStates scope states

/-- The references inside branches that dangle. -/
def danglingInBranches : List (Scope State) → List (String × String)
  | [] => []
  | branch :: rest => danglingInScope branch ++ danglingInBranches rest

end

end State

/-- All references that dangle, as pairs of state and target. -/
def StateGraph.danglingReferences (g : StateGraph) : List (String × String) :=
  State.danglingInScope g

end Rollout
