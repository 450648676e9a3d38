import Rollout.Json.Printing
import Rollout.Json.Reading
import Rollout.Plan.Basic
import Rollout.Yaml.Reading

/-!
# Plans from texts and JSON values

`Plan.ofJson` accepts a list of step objects.  A step needs a string `Name` and must not carry
`Next` or `End`.  The type `Choice` asks for a condition object and a non-empty list `IsTrue`, allows
a non-empty list `IsFalse` and nothing else; the type `Parallel` asks for a non-empty list of
non-empty branches; every other object is a task.  The first step that is not valid decides the
error.
-/

namespace Rollout

namespace Step

/-! ## Where a step stands -/

/-- Behind another step of its list. -/
def placeAfter (step : String) : String := "the step following " ++ step

/-- At the head of a nested list. -/
def placeFirstIn (step : String) (field : StepField) : String :=
  "the first step of \"" ++ field.key ++ "\" in step " ++ step

/-- At the head of the plan. -/
def placeFirst : String := "the first step"

/-! ## Parts of a step object -/

/-- The keys that a choice may have. -/
def choiceKeys : List String := ["Name", "Type", "IsTrue", "IsFalse", "Condition"]

/-- The members of an object except those of the given keys. -/
def without (keys : List String) (members : List (String × Json)) : List (String × Json) :=
  members.filter fun m => !keys.contains m.1

/-- The name of a step object. -/
def nameOf (location : String) (members : List (String × Json)) : Except PlanError String :=
  match members.lookup "Name" with
  | none => .error (.missingName location)
  | some (.string name) => .ok name
  | some _ => .error (.nameNotString location)

/-- The condition of a choice object, its keys being checked first. -/
def conditionOf (name : String) (members : List (String × Json)) :
    Except PlanError (List (String × Json)) :=
  match members.find? fun m => !choiceKeys.contains m.1 with
  | some (key, _) => .error (.disallowedChoiceKey name key (",".intercalate choiceKeys))
  | none =>
    match members.lookup "Condition" with
    | none => .error (.missingField name .condition)
    | some (.object condition) => .ok condition
    | some _ => .error (.notObject name .condition)

/-! ## Steps -/

mutual

/-- The step that an object writes. -/
def ofJson (location : String) : Json → Except PlanError Step
  | .object members => do
    let name ← nameOf location members
    if (members.lookup "Next").isSome || (members.lookup "End").isSome then
      throw (.forbiddenTransition name)
    match (members.lookup "Type").bind Json.text? with
    | some "Choice" =>
      let condition ← conditionOf name members
      match listAt name .isTrue members with
      | none => throw (.missingField name .isTrue)
      | some whenTrue =>
        let whenTrue ← whenTrue
        match listAt name .isFalse members with
        | none => return .choice name condition whenTrue none
        | some whenFalse => return .choice name condition whenTrue (some (← whenFalse))
    | some "Parallel" =>
      match branchesAt name members with
      | none => throw (.missingField name .branches)
      | some branches =>
        return .parallel name (← branches) (without ["Name", "Type", "Branches"] members)
    | _ => return .task name (without ["Name"] members)
  | j => .error (.stepNotObject j.compact)

/-- The steps of a list whose first step stands at the location. -/
def ofItems (location : String) : List Json → Except PlanError (List Step)
  | [] => .ok []
  | item :: rest => do
    let step ← ofJson location item
    return step :: (← ofItems (placeAfter step.name) rest)

/-- The steps of a nested list, of which there must be one. -/
def ofNested (step : String) (field : StepField) : Json → Except PlanError (List Step)
  | .array [] => .error (.emptyBranch step field)
  | .array (first :: rest) => ofItems (placeFirstIn step field) (first :: rest)
  | _ => .error (.notArray step field)

/-- The steps of the nested list at a field, if the object has the field. -/
def listAt (step : String) (field : StepField) :
    List (String × Json) → Option (Except PlanError (List Step))
  | [] => none
  | (key, j) :: rest =>
    if field.key == key then some (ofNested step field j) else listAt step field rest

/-- The branches of a list of nested lists. -/
def ofBranches (step : String) : List Json → Except PlanError (List (List Step))
  | [] => .ok []
  | j :: rest => do
    let branch ← ofNested step .branches j
    return branch :: (← ofBranches step rest)

/-- The branches that a value lists, of which there must be one. -/
def ofBranchList (step : String) : Json → Except PlanError (List (List Step))
  | .array [] => .error (.emptyBranch step .branches)
  | .array (first :: rest) => ofBranches step (first :: rest)
  | _ => .error (.notArray step .branches)

/-- The branches of a parallel object, if it has the field. -/
def branchesAt (step : String) :
    List (String × Json) → Option (Except PlanError (List (List Step)))
  | [] => none
  | (key, j) :: rest =>
    if StepField.branches.key == key then some (ofBranchList step j) else branchesAt step rest

end

end Step

namespace Plan

/-- The plan that a value writes. -/
def ofJson : Json → Except PlanError Plan
  | .array items => do ofSteps (← Step.ofItems Step.placeFirst items)
  | _ => .error (.unreadable "a deployment plan must be a list of steps")

/-- The plan that a JSON text writes. -/
def ofJsonText (text : String) : Except PlanError Plan :=
  match Json.ofText text with
  | .ok value => ofJson value
  | .error fault => .error (.unreadable fault.message)

/-- The plan that a YAML text writes.  Of a text that does not read nothing more is told. -/
def ofYamlText (text : String) : Except PlanError Plan :=
  match Yaml.ofText? text with
  | some value => ofJson value
  | none => .error (.unreadable "")

end Plan

end Rollout
