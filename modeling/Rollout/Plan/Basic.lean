import Rollout.Json.Basic
import Rollout.Plan.Error

/-!
# Deployment plans

A plan is a list of steps written in order.  A task does something; its fields are free-form and
include its type.  A choice goes on with one of two lists, a parallel step runs all of its branches.
Where control goes after a step is not written: it follows from the order.
-/

namespace Rollout

/-- A step of a plan. -/
inductive Step where
  /-- An action with its fields, the type among them. -/
  | task (name : String) (fields : List (String × Json))
  | choice (name : String) (condition : List (String × Json)) (whenTrue : List Step)
      (whenFalse : Option (List Step))
  /-- Branches that run side by side, with the further fields. -/
  | parallel (name : String) (branches : List (List Step)) (fields : List (String × Json))

namespace Step

/-- The name of a step. -/
def name : Step → String
  | .task name _ => name
  | .choice name _ _ _ => name
  | .parallel name _ _ => name

/-- The type of a step, if it has one that is a string. -/
def type? : Step → Option String
  | .task _ fields => (fields.lookup "Type").bind Json.text?
  | .choice .. => some "Choice"
  | .parallel .. => some "Parallel"

/-- An action of a type without other fields. -/
def ofType (name type : String) : Step := .task name [("Type", .string type)]

end Step

/-- A plan has at least one step. -/
structure Plan where
  steps : List Step
  nonempty : steps ≠ []

/-- The plan of the given steps, unless there are none. -/
def Plan.ofSteps : List Step → Except PlanError Plan
  | [] => .error .emptyPlan
  | step :: rest => .ok ⟨step :: rest, List.cons_ne_nil step rest⟩

end Rollout
