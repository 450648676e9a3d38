import Rollout.Store.Basic

/-!
# The record table

The store that keeps records as they are, in key order.
-/

namespace Rollout

/-- Records by their keys. -/
structure RecordTable where
  records : SortedMap RecordKey Record
deriving DecidableEq

namespace RecordTable

/-- Put a record at its key. -/
def put (r : Record) (t : RecordTable) : RecordTable := ⟨t.records.insert r.key r⟩

/-- The table of the given records; of records with one key the last is kept. -/
def ofList (records : List Record) : RecordTable := ⟨SortedMap.ofList (records.map fun r => (r.key, r))⟩

/-- The records of a target, oldest first. -/
def ofDeployment (t : RecordTable) (deployment : String) : List Record :=
  t.records.values.filter fun r => r.deployment == deployment

/-- The records of a target that were built from an object, oldest first. -/
def ofObject (t : RecordTable) (object deployment : String) : List Record :=
  t.records.values.filter fun r => r.deployment == deployment && r.object == object

/-- The newest records of a target. -/
def latest (t : RecordTable) (deployment : String) (limit : Nat) : List Record :=
  (t.ofDeployment deployment).reverse.take limit

/-- Change the record at a key. -/
def update (key : RecordKey) (change : Record.Change) (t : RecordTable) :
    Except StoreError RecordTable :=
  match t.records.get? key with
  | some r => .ok ⟨t.records.insert key (r.apply change)⟩
  | none => .error (.recordNotFound key)

instance : RecordStore RecordTable where
  empty := ⟨.empty⟩
  put r t := .ok (t.put r)
  get? t key := .ok (t.records.get? key)
  ofObject t object deployment := .ok (t.ofObject object deployment)
  ofDeployment t deployment := .ok (t.ofDeployment deployment)
  latest t deployment limit := .ok (t.latest deployment limit)
  update := update

end RecordTable

end Rollout
