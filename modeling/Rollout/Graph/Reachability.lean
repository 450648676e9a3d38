import Rollout.Graph.Basic

/-!
# Reachability

The transitions inside a scope make a graph whose nodes are the positions of its states.  When a name
is repeated, the last position of the name stands for it, so links from any state of the name start
there, links to the name end there, and the other positions cannot be reached.  Links to names that
the scope does not have are left out.

The search starts at the position of the start name.  Each round takes one position off those that
remain, so the number of states bounds the rounds and cycles need no care.
-/

namespace Rollout

/-- Gather what can be reached from the pending nodes by way of remaining ones. -/
def gather {ν : Type} [BEq ν] (next : ν → List ν) : Nat → List ν → List ν → List ν
  | 0, _, _ => []
  | rounds + 1, remaining, pending =>
    match pending.find? remaining.contains with
    | none => []
    | some node =>
      node :: gather next rounds (remaining.erase node) (next node ++ pending)

/-- The last position of a name. -/
def lastPosition? (name : String) : (names : List String) → Option (Fin names.length)
  | [] => none
  | other :: rest =>
    match lastPosition? name rest with
    | some i => some i.succ
    | none => if other = name then some ⟨0, Nat.succ_pos rest.length⟩ else none

/-- Put a text at its place in an ascending list. -/
def insertText (s : String) : List String → List String
  | [] => [s]
  | t :: rest => if t < s then t :: insertText s rest else s :: t :: rest

/-- Texts in ascending order. -/
def sortTexts : List String → List String
  | [] => []
  | s :: rest => insertText s (sortTexts rest)

/-- The transitions inside a scope with these names. -/
structure ScopeGraph (names : List String) where
  edges : List (Fin names.length × Fin names.length)
  start : Option (Fin names.length)

namespace ScopeGraph

variable {names : List String}

/-- The positions that edges lead to from a position. -/
def next (s : ScopeGraph names) (i : Fin names.length) : List (Fin names.length) :=
  s.edges.filterMap fun edge => if edge.1 = i then some edge.2 else none

/-- The positions that can be reached from the start. -/
def visited (s : ScopeGraph names) : List (Fin names.length) :=
  gather s.next names.length (List.finRange names.length) s.start.toList

/-- The names at the positions that cannot be reached, sorted. -/
def unreachable (s : ScopeGraph names) : List String :=
  let visited := s.visited
  sortTexts (((List.finRange names.length).filter fun i => !visited.contains i).map names.get)

end ScopeGraph

namespace StateGraph

/-- The transitions inside the scope itself. -/
def scopeGraph (g : StateGraph) : ScopeGraph g.names where
  edges := g.states.flatMap fun s => s.targets.filterMap fun target => do
    let source ← lastPosition? s.name g.names
    let target ← lastPosition? target g.names
    return (source, target)
  start := lastPosition? g.startAt g.names

/-- The names of the unreachable states of the scope itself, sorted. -/
def unreachable (g : StateGraph) : List String := g.scopeGraph.unreachable

end StateGraph

namespace State

mutual

/-- The unreachable states inside the branches of a state. -/
def unreachableInside : State → List String
  | .parallel _ branches _ _ => unreachableInBranches branches
  | _ => []

/-- The unreachable states inside the branches of the states. -/
def unreachableInStates : List State → List String
  | [] => []
  | s :: rest => s.unreachableInside ++ unreachableInStates rest

/-- The unreachable states of a scope, before those inside its branches. -/
def unreachableInScope : Scope State → List String
  | ⟨startAt, states⟩ =>
    StateGraph.unreachable ⟨startAt, states⟩ ++ unreachableInStates states

/-- The unreachable states of the branches. -/
def unreachableInBranches : List (Scope State) → List String
  | [] => []
  | branch :: rest => unreachableInScope branch ++ unreachableInBranches rest

end

end State

/-- The unreachable states of the graph and all its branches. -/
def StateGraph.unreachableStates (g : StateGraph) : List String := State.unreachableInScope g

end Rollout
