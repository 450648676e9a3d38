import Rollout.Json.Printing
import Rollout.Store.Bytes

/-!
# Byte stores as texts

A byte store is kept in a file as an object of its two tables, each a list of keys and values.  Keys
and values of the index are written as lists of bytes.
-/

namespace Rollout.ByteStore

/-- A byte string as a list of numbers. -/
def keyDocument (key : ByteKey) : Json :=
  .array (key.map fun b => .number (.ofUInt64 b.toUInt64))

/-- The byte string that a list of numbers writes. -/
def key? : Json → Option ByteKey
  | .array items => items.mapM fun
    | .number (.integer n _) => if 0 ≤ n ∧ n < 256 then some n.toNat.toUInt8 else none
    | _ => none
  | _ => none

/-- The store as a document. -/
def document (s : ByteStore) : Json :=
  .object [
    ("rows", .array (s.rows.entries.map fun e => .array [keyDocument e.1, .string e.2])),
    ("index", .array (s.index.entries.map fun e => .array [keyDocument e.1, keyDocument e.2]))]

/-- The entries of a table. -/
def entries? {α : Type} (value? : Json → Option α) : Option Json → Option (List (ByteKey × α))
  | some (.array items) => items.mapM fun
    | .array [key, value] => do return (← key? key, ← value? value)
    | _ => none
  | _ => none

/-- The store that a document writes. -/
def ofJson? (j : Json) : Option ByteStore := do
  let rows ← entries? Json.text? (j.member? "rows")
  let index ← entries? key? (j.member? "index")
  return ⟨.ofList rows, .ofList index⟩

end Rollout.ByteStore
