import Rollout.Store.Basic
import Rollout.Store.Key

/-!
# The byte store

The store that keeps records as texts under byte keys, with a second table as index from object and
target to the keys of the records.  Every read decodes the texts it meets.  A name may contain the
separator; scans and index rows of different names can then meet, and nothing here prevents that.
-/

namespace Rollout

/-- Record texts by byte keys, and record keys by index keys. -/
structure ByteStore where
  rows : SortedMap ByteKey String
  index : SortedMap ByteKey ByteKey
deriving DecidableEq

namespace ByteStore

/-- The record that a text holds. -/
def decode (text : String) : Except StoreError Record :=
  match Record.ofText text with
  | .ok r => .ok r
  | .error fault => .error (.unreadable fault)

/-- The entries of a table whose keys lie in a scan, in key order. -/
def scan {α : Type} (table : SortedMap ByteKey α) (start : ByteKey) : List α :=
  (table.entries.filter fun e => start.inScan e.1).map Prod.snd

/-- Put a record.  The index row of the record that it replaces is dropped. -/
def put (r : Record) (s : ByteStore) : Except StoreError ByteStore := do
  let primary := ByteKey.ofRecord r.key
  let index ← match s.rows.get? primary with
    | none => pure s.index
    | some text => do
      let previous ← decode text
      pure (s.index.erase (ByteKey.ofIndex previous.object r.key))
  return ⟨s.rows.insert primary r.text, index.insert (ByteKey.ofIndex r.object r.key) primary⟩

/-- The record at a key. -/
def get? (s : ByteStore) (key : RecordKey) : Except StoreError (Option Record) :=
  match s.rows.get? (ByteKey.ofRecord key) with
  | some text => (decode text).map some
  | none => .ok none

/-- The records that the index lists for an object and a target. -/
def ofObject (s : ByteStore) (object deployment : String) : Except StoreError (List Record) :=
  ((scan s.index (ByteKey.ofObject object deployment)).filterMap s.rows.get?).mapM decode

/-- The records in the scan of a target. -/
def ofDeployment (s : ByteStore) (deployment : String) : Except StoreError (List Record) :=
  (scan s.rows (ByteKey.ofText deployment)).mapM decode

/-- The last records in the scan of a target. -/
def latest (s : ByteStore) (deployment : String) (limit : Nat) : Except StoreError (List Record) :=
  ((scan s.rows (ByteKey.ofText deployment)).reverse.take limit).mapM decode

/-- Read, change and write the record at a key. -/
def update (key : RecordKey) (change : Record.Change) (s : ByteStore) :
    Except StoreError ByteStore := do
  let primary := ByteKey.ofRecord key
  match s.rows.get? primary with
  | none => throw (.recordNotFound key)
  | some text =>
    let r ← decode text
    return { s with rows := s.rows.insert primary (r.apply change).text }

instance : RecordStore ByteStore where
  empty := ⟨.empty, .empty⟩
  put := put
  get? := get?
  ofObject := ofObject
  ofDeployment := ofDeployment
  latest := latest
  update := update

end ByteStore

end Rollout
