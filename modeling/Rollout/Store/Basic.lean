import Rollout.Store.Error

/-!
# Record stores

What a record store can be asked: put a record, find records by artifact and target, list the records
of a target, and change an attribute of one record.
-/

namespace Rollout

/-- The operations of a record store. -/
class RecordStore (σ : Type) where
  /-- The store without records. -/
  empty : σ
  /-- Insert or replace a record. -/
  put : Record → σ → Except StoreError σ
  /-- The record at a key. -/
  get? : σ → RecordKey → Except StoreError (Option Record)
  /-- The records of a target that were built from an object, oldest first. -/
  ofObject : σ → (object deployment : String) → Except StoreError (List Record)
  /-- The records of a target, oldest first. -/
  ofDeployment : σ → (deployment : String) → Except StoreError (List Record)
  /-- The newest records of a target, at most as many as the limit. -/
  latest : σ → (deployment : String) → (limit : Nat) → Except StoreError (List Record)
  /-- Change the record at a key, which must exist. -/
  update : RecordKey → Record.Change → σ → Except StoreError σ

end Rollout
