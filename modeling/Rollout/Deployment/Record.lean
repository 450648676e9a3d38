import Rollout.Deployment.Instant
import Rollout.Deployment.Name
import Rollout.Json.Printing

/-!
# Deployment records

A record is one deploy attempt of a deployment target, keyed by the name of the target and its deploy
time.  Deploy time zero is reserved for the template row of a target.  Records are created once and
then only changed attribute by attribute, which `Record.Change` lists.
-/

namespace Rollout

/-! ## Keys -/

/-- The key of a record. -/
structure RecordKey where
  deployment : String
  time : UInt64
deriving Repr, DecidableEq

namespace RecordKey

/-- Keys are ordered by name, then by time. -/
instance : Ord RecordKey where
  compare := compareLex (compareOn RecordKey.deployment) (compareOn RecordKey.time)

instance : Std.TransOrd RecordKey :=
  inferInstanceAs (Std.TransCmp
    (compareLex (compareOn RecordKey.deployment) (compareOn RecordKey.time)))

instance : Std.LawfulEqOrd RecordKey where
  eq_of_compare {a b} h := by
    have h : (compare a.deployment b.deployment).then (compare a.time b.time) = .eq := h
    obtain ⟨hn, ht⟩ := Ordering.then_eq_eq.1 h
    cases a; cases b
    cases Std.LawfulEqCmp.eq_of_compare hn
    cases Std.LawfulEqCmp.eq_of_compare ht
    rfl

/-- The text of a key. -/
def text (k : RecordKey) : String := k.deployment ++ "@" ++ String.ofList (Nat.toDigits 10 k.time.toNat)

end RecordKey

/-! ## Records -/

/-- The deploy time of template rows. -/
def templateTime : UInt64 := 0

/-- One deploy attempt of a deployment target. -/
structure Record where
  deployment : String
  time : UInt64
  object : String
  environment : Option String
  distribution : Option String
  distributionId : Option String
  /-- The executions of the attempt by their attempt keys. -/
  executions : SortedMap String String
  errorMessage : Option String
  errorCode : Option String
  tags : SortedMap String String
  version : Option String
  stack : String
  packaged : Bool
  planStatus : Option String
deriving DecidableEq

namespace Record

/-- A record whose optional attributes are absent. -/
def minimal (deployment : String) (time : UInt64) (object stack : String) : Record where
  deployment := deployment
  time := time
  object := object
  environment := none
  distribution := none
  distributionId := none
  executions := .empty
  errorMessage := none
  errorCode := none
  tags := .empty
  version := none
  stack := stack
  packaged := false
  planStatus := none

/-- The key of a record. -/
def key (r : Record) : RecordKey := ⟨r.deployment, r.time⟩

/-- Whether a record is the template row of its target. -/
def isTemplate (r : Record) : Bool := r.time == templateTime

/-- The instant of the deployment, if it lies within the calendar. -/
def deployedAt? (r : Record) : Option Instant := Instant.ofMillis? r.time.toNat

/-- Whether an execution is recorded under some attempt key. -/
def recordsExecution (r : Record) (execution : String) : Bool :=
  r.executions.values.contains execution

/-! ## Changes -/

/-- A change of one attribute, or of the two that describe an error. -/
inductive Change where
  | setExecution (attempt execution : String)
  | setError (message code : String)
  | setPlanStatus (status : String)
deriving Repr, DecidableEq

/-- The record after a change. -/
def apply (r : Record) : Change → Record
  | .setExecution attempt execution => { r with executions := r.executions.insert attempt execution }
  | .setError message code => { r with errorMessage := some message, errorCode := some code }
  | .setPlanStatus status => { r with planStatus := some status }

/-! ## Documents -/

/-- A member that is left out when it is absent. -/
def optional (key : String) : Option String → List (String × Json)
  | some s => [(key, .string s)]
  | none => []

/-- A map of texts. -/
def textMap (m : SortedMap String String) : Json :=
  .object (m.entries.map fun e => (e.1, .string e.2))

/-- The record as an object; members stand in the order of the declaration. -/
def document (r : Record) : Json :=
  .object <|
    [("deploymentName", .string r.deployment), ("deploymentTime", .number (.ofUInt64 r.time)),
      ("objectIdentifier", .string r.object)] ++
    optional "environment" r.environment ++
    optional "distributionName" r.distribution ++
    optional "distributionId" r.distributionId ++
    [("executionArns", textMap r.executions)] ++
    optional "errorMessage" r.errorMessage ++
    optional "errorCode" r.errorCode ++
    [("distributionTags", textMap r.tags)] ++
    optional "version" r.version ++
    [("stackName", .string r.stack), ("samPackaged", .bool r.packaged)] ++
    optional "deploymentPlanStatus" r.planStatus

/-- The compact text of a record. -/
def text (r : Record) : String := r.document.compact

end Record

end Rollout
