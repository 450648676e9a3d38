import Rollout.Json.Basic

/-!
# State graphs

A state graph is a scope: the name of the state to start at and the states in the order in which
they were compiled.  The branches of a parallel state are scopes of their own, so names are resolved
scope by scope.  Nothing here asks a graph to be sound; `Graph.Links` and `Graph.Reachability` tell.
-/

namespace Rollout

/-- Where control goes after a state. -/
inductive Transition where
  | next (target : String)
  | stop
deriving Repr, DecidableEq

/-- A rule of a choice state: its condition and the state it leads to. -/
structure Rule where
  condition : List (String × Json)
  next : String

/-- A start name and the states beside it. -/
structure Scope (σ : Type) where
  startAt : String
  states : List σ

/-- A state.  Choice states route through their rules and their default and normally have no
transition of their own; merge and pass states are made by the compiler. -/
inductive State where
  | task (name : String) (fields : List (String × Json)) (transition : Option Transition)
  | choice (name : String) (rules : List Rule) (default : String) (transition : Option Transition)
  | parallel (name : String) (branches : List (Scope State)) (fields : List (String × Json))
      (transition : Option Transition)
  /-- The join behind a parallel state. -/
  | merge (name : String) (type : String) (transition : Option Transition)
  /-- An end without action. -/
  | pass (name : String) (transition : Option Transition)

/-- A graph of states. -/
abbrev StateGraph := Scope State

namespace State

/-- The name of a state. -/
def name : State → String
  | .task name _ _ => name
  | .choice name _ _ _ => name
  | .parallel name _ _ _ => name
  | .merge name _ _ => name
  | .pass name _ => name

/-- The transition of a state. -/
def transition? : State → Option Transition
  | .task _ _ t => t
  | .choice _ _ _ t => t
  | .parallel _ _ _ t => t
  | .merge _ _ t => t
  | .pass _ t => t

/-- The type of a state, if it has one that is a string. -/
def type? : State → Option String
  | .task _ fields _ => (fields.lookup "Type").bind Json.text?
  | .choice .. => some "Choice"
  | .parallel .. => some "Parallel"
  | .merge _ type _ => some type
  | .pass .. => some "Pass"

/-- Whether the compiler made the state. -/
def isSynthetic : State → Bool
  | .merge .. => true
  | .pass .. => true
  | _ => false

/-- Whether the run ends after the state. -/
def isEnd (s : State) : Bool := s.transition? = some .stop

/-- The states that a choice leads to. -/
def choiceTargets : State → List String
  | .choice _ rules default _ => rules.map Rule.next ++ [default]
  | _ => []

/-- Every state that control can be handed to. -/
def targets (s : State) : List String :=
  s.choiceTargets ++
    match s.transition? with
    | some (.next target) => [target]
    | _ => []

mutual

/-- The name of a state and those inside its branches. -/
def allNames : State → List String
  | .parallel name branches _ _ => name :: namesInBranches branches
  | s => [s.name]

/-- All names of the states. -/
def namesInStates : List State → List String
  | [] => []
  | s :: rest => s.allNames ++ namesInStates rest

/-- All names of a scope. -/
def namesInScope : Scope State → List String
  | ⟨_, states⟩ => namesInStates states

/-- All names of the branches. -/
def namesInBranches : List (Scope State) → List String
  | [] => []
  | branch :: rest => namesInScope branch ++ namesInBranches rest

end

end State

namespace StateGraph

/-- The names of the states of the scope itself. -/
def names (g : StateGraph) : List String := g.states.map State.name

/-- The names of all states, each before those inside its branches. -/
def allNames (g : StateGraph) : List String := State.namesInScope g

/-- The first state of a name. -/
def get? (g : StateGraph) (name : String) : Option State := g.states.find? fun s => s.name == name

/-- Whether the scope has a state of the name. -/
def contains (g : StateGraph) (name : String) : Bool := (g.get? name).isSome

end StateGraph

end Rollout
