import Rollout.Deployment.Record
import Rollout.Deployment.Record.Fault

/-!
# Fields of a record

Every field has a key and a shape, and the shape has a type of contents.  A `Draft` is a record whose
fields are filled in one at a time; `Draft.finish` completes it, absent attributes and empty maps
standing in for fields that may be left out.
-/

namespace Rollout.Record

/-- What a field holds. -/
inductive Shape where
  | text
  | optionalText
  | time
  | textMap
  | flag
deriving Repr, DecidableEq

/-- The contents of a shape. -/
abbrev Shape.Content : Shape → Type
  | .text => String
  | .optionalText => Option String
  | .time => UInt64
  | .textMap => SortedMap String String
  | .flag => Bool

/-- The fields in the order of the declaration. -/
inductive Field where
  | deployment
  | time
  | object
  | environment
  | distribution
  | distributionId
  | executions
  | errorMessage
  | errorCode
  | tags
  | version
  | stack
  | packaged
  | planStatus
deriving Repr, DecidableEq

namespace Field

/-- All fields in the order of the declaration. -/
def all : List Field :=
  [.deployment, .time, .object, .environment, .distribution, .distributionId, .executions,
    .errorMessage, .errorCode, .tags, .version, .stack, .packaged, .planStatus]

/-- The key of a field. -/
def key : Field → String
  | .deployment => "deploymentName"
  | .time => "deploymentTime"
  | .object => "objectIdentifier"
  | .environment => "environment"
  | .distribution => "distributionName"
  | .distributionId => "distributionId"
  | .executions => "executionArns"
  | .errorMessage => "errorMessage"
  | .errorCode => "errorCode"
  | .tags => "distributionTags"
  | .version => "version"
  | .stack => "stackName"
  | .packaged => "samPackaged"
  | .planStatus => "deploymentPlanStatus"

/-- The shape of a field. -/
def shape : Field → Shape
  | .deployment => .text
  | .time => .time
  | .object => .text
  | .environment => .optionalText
  | .distribution => .optionalText
  | .distributionId => .optionalText
  | .executions => .textMap
  | .errorMessage => .optionalText
  | .errorCode => .optionalText
  | .tags => .textMap
  | .version => .optionalText
  | .stack => .text
  | .packaged => .flag
  | .planStatus => .optionalText

/-- The field of a key. -/
def ofKey? (key : String) : Option Field := all.find? fun f => f.key == key

/-- Whether a record may leave the field out. -/
def hasDefault (f : Field) : Bool :=
  match f.shape with
  | .text => false
  | .time => false
  | _ => true

end Field

/-! ## Drafts -/

/-- A record in the making. -/
structure Draft where
  deployment : Option String := none
  time : Option UInt64 := none
  object : Option String := none
  environment : Option (Option String) := none
  distribution : Option (Option String) := none
  distributionId : Option (Option String) := none
  executions : Option (SortedMap String String) := none
  errorMessage : Option (Option String) := none
  errorCode : Option (Option String) := none
  tags : Option (SortedMap String String) := none
  version : Option (Option String) := none
  stack : Option String := none
  packaged : Option Bool := none
  planStatus : Option (Option String) := none

namespace Draft

/-- Fill in a field. -/
def put (d : Draft) : (f : Field) → f.shape.Content → Draft
  | .deployment, s => { d with deployment := some s }
  | .time, t => { d with time := some t }
  | .object, s => { d with object := some s }
  | .environment, s => { d with environment := some s }
  | .distribution, s => { d with distribution := some s }
  | .distributionId, s => { d with distributionId := some s }
  | .executions, m => { d with executions := some m }
  | .errorMessage, s => { d with errorMessage := some s }
  | .errorCode, s => { d with errorCode := some s }
  | .tags, m => { d with tags := some m }
  | .version, s => { d with version := some s }
  | .stack, s => { d with stack := some s }
  | .packaged, b => { d with packaged := some b }
  | .planStatus, s => { d with planStatus := some s }

/-- Whether a field is filled in. -/
def has (d : Draft) : Field → Bool
  | .deployment => d.deployment.isSome
  | .time => d.time.isSome
  | .object => d.object.isSome
  | .environment => d.environment.isSome
  | .distribution => d.distribution.isSome
  | .distributionId => d.distributionId.isSome
  | .executions => d.executions.isSome
  | .errorMessage => d.errorMessage.isSome
  | .errorCode => d.errorCode.isSome
  | .tags => d.tags.isSome
  | .version => d.version.isSome
  | .stack => d.stack.isSome
  | .packaged => d.packaged.isSome
  | .planStatus => d.planStatus.isSome

/-- A required content, or the fault of its absence. -/
def require {α : Type} (f : Field) : Option α → Except Fault α
  | some a => .ok a
  | none => .error (.missingField f.key)

/-- The finished record; the first required field that is missing is reported. -/
def finish (d : Draft) : Except Fault Record := do
  let deployment ← require .deployment d.deployment
  let time ← require .time d.time
  let object ← require .object d.object
  let stack ← require .stack d.stack
  return {
    deployment := deployment
    time := time
    object := object
    environment := d.environment.join
    distribution := d.distribution.join
    distributionId := d.distributionId.join
    executions := d.executions.getD .empty
    errorMessage := d.errorMessage.join
    errorCode := d.errorCode.join
    tags := d.tags.getD .empty
    version := d.version.join
    stack := stack
    packaged := d.packaged.getD false
    planStatus := d.planStatus.join }

end Draft

end Rollout.Record
