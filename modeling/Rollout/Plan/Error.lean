/-!
# Faults of deployment plans

A plan is refused for one cause.  The causes up to `emptyBranch` concern the authored document,
`duplicateName` the names a compilation would give, and the last two the links of a compiled graph.
-/

namespace Rollout

/-- The structural fields of a step. -/
inductive StepField where
  | isTrue
  | isFalse
  | condition
  | branches
deriving Repr, DecidableEq

/-- The key of a structural field. -/
def StepField.key : StepField → String
  | .isTrue => "IsTrue"
  | .isFalse => "IsFalse"
  | .condition => "Condition"
  | .branches => "Branches"

/-- Why a plan is refused. -/
inductive PlanError where
  /-- The document is no list of steps; the detail says why. -/
  | unreadable (detail : String)
  | emptyPlan
  | stepNotObject (found : String)
  | missingName (location : String)
  | nameNotString (location : String)
  | forbiddenTransition (step : String)
  | disallowedChoiceKey (step key allowed : String)
  | missingField (step : String) (field : StepField)
  | notArray (step : String) (field : StepField)
  | notObject (step : String) (field : StepField)
  | emptyBranch (step : String) (field : StepField)
  | duplicateName (name : String)
  | danglingReference (state target : String)
  | unreachableState (name : String)
deriving Repr, DecidableEq

/-- The wording of a fault. -/
def PlanError.message : PlanError → String
  | .unreadable detail => "Could not parse deployment plan: " ++ detail
  | .emptyPlan => "The deployment plan can not be empty"
  | .stepNotObject found => "Each step in a deployment plan must be an object, found " ++ found
  | .missingName location => "Field \"Name\" is missing in " ++ location
  | .nameNotString location => "Field \"Name\" in " ++ location ++ " is not a string"
  | .forbiddenTransition step =>
    "\"Next\" and \"End\" are not allowed in a deployment plan. Step name: " ++ step
  | .disallowedChoiceKey step key allowed =>
    "Error in step " ++ step ++ ": key " ++ key ++
      " is not allowed for Choice. Allowed keys are: " ++ allowed
  | .missingField step field =>
    "Error in step " ++ step ++ ": no \"" ++ field.key ++ "\" field specified"
  | .notArray step field =>
    "Error in step " ++ step ++ ": \"" ++ field.key ++ "\" should be an array"
  | .notObject step field =>
    "Error in step " ++ step ++ ": \"" ++ field.key ++ "\" should be an object"
  | .emptyBranch step field =>
    "Error in step " ++ step ++ ": \"" ++ field.key ++ "\" can not be empty"
  | .duplicateName name =>
    "Duplicated step name detected, step names must be unique. Name: " ++ name
  | .danglingReference state target =>
    "State " ++ state ++ " references unknown state " ++ target
  | .unreachableState name =>
    "State " ++ name ++ " can not be reached from the start state"

end Rollout
