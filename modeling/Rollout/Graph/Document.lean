import Rollout.Json.Printing
import Rollout.Graph.Basic

/-!
# Graphs as documents

A graph is written as an object of its start name and its states, which stand in compile order
under their names.  `StateGraph.document` keeps that order and every repetition of a key;
`StateGraph.toJson` is its value, with sorted keys and the last member of each.
-/

namespace Rollout

/-- The members that a transition adds to a state. -/
def Transition.members : Option Transition → List (String × Json)
  | some (.next target) => [("Next", .string target)]
  | some .stop => [("End", .bool true)]
  | none => []

/-- A rule: its condition without a target of its own, and the target. -/
def Rule.document (r : Rule) : Json :=
  .object (r.condition.filter (fun m => m.1 != "Next") ++ [("Next", .string r.next)])

namespace State

mutual

/-- The body of a state, which does not hold its name. -/
def document : State → Json
  | .task _ fields t => .object (fields ++ Transition.members t)
  | .choice _ rules default t =>
    .object ([("Type", .string "Choice"), ("Choices", .array (rules.map Rule.document)),
      ("Default", .string default)] ++ Transition.members t)
  | .parallel _ branches fields t =>
    .object (("Type", .string "Parallel") :: (fields ++
      ("Branches", .array (branchDocuments branches)) :: Transition.members t))
  | .merge _ type t => .object (("Type", .string type) :: Transition.members t)
  | .pass _ t => .object (("Type", .string "Pass") :: Transition.members t)

/-- The states under their names. -/
def stateMembers : List State → List (String × Json)
  | [] => []
  | s :: rest => (s.name, s.document) :: stateMembers rest

/-- A scope as an object. -/
def scopeDocument : Scope State → Json
  | ⟨startAt, states⟩ =>
    .object [("StartAt", .string startAt), ("States", .object (stateMembers states))]

/-- The branches as objects. -/
def branchDocuments : List (Scope State) → List Json
  | [] => []
  | branch :: rest => scopeDocument branch :: branchDocuments rest

end

end State

namespace StateGraph

/-- The graph with states in compile order. -/
def document (g : StateGraph) : Json := State.scopeDocument g

/-- The value of the graph. -/
def toJson (g : StateGraph) : Json := g.document.sortMembers

/-- The pretty text of the graph, states in compile order. -/
def pretty (g : StateGraph) : String := g.document.pretty

end StateGraph

end Rollout
