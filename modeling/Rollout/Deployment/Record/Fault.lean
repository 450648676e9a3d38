import Rollout.Json.Printing
import Rollout.Json.SyntaxError
import Rollout.Text.Debug

/-!
# Faults of record texts

A text fails to be a record because it is no JSON, because a value is of the wrong type or range, or
because fields are repeated or missing.
-/

namespace Rollout.Record

/-- What stands where something else was expected. -/
inductive Found where
  | null
  | bool (value : Bool)
  | number (value : Number)
  | text (value : String)
  | list
  | map
deriving DecidableEq

/-- What was expected. -/
inductive Expected where
  | text
  | time
  | flag
  | map
  | record
deriving Repr, DecidableEq

/-- Why a text is not a record. -/
inductive Fault where
  | notJson (cause : Json.SyntaxError)
  | wrongType (found : Found) (expected : Expected)
  | wrongValue (found : Found) (expected : Expected)
  | duplicateField (key : String)
  | missingField (key : String)
  /-- A list that ends before the field at the index. -/
  | tooShort (index : Nat)
  /-- A list with items behind the last field. -/
  | tooLong (length : Nat)
deriving DecidableEq

/-- The wording of what was found. -/
def Found.wording : Found → String
  | .null => "null"
  | .bool true => "boolean \x60true\x60"
  | .bool false => "boolean \x60false\x60"
  | .number (.integer n h) => "integer \x60" ++ String.ofList (Number.integer n h).chars ++ "\x60"
  | .number (.double x) => "floating point \x60" ++ String.ofList (Number.double x).chars ++ "\x60"
  | .text s => "string " ++ Text.debug s
  | .list => "sequence"
  | .map => "map"

/-- The wording of what was expected. -/
def Expected.wording : Expected → String
  | .text => "a string"
  | .time => "u64"
  | .flag => "a boolean"
  | .map => "a map"
  | .record => "struct DeploymentRecord"

/-- The number of fields of a record. -/
def fieldCount : Nat := 14

/-- The wording of a fault. -/
def Fault.message : Fault → String
  | .notJson cause => cause.message
  | .wrongType found expected =>
    "invalid type: " ++ found.wording ++ ", expected " ++ expected.wording
  | .wrongValue found expected =>
    "invalid value: " ++ found.wording ++ ", expected " ++ expected.wording
  | .duplicateField key => "duplicate field \x60" ++ key ++ "\x60"
  | .missingField key => "missing field \x60" ++ key ++ "\x60"
  | .tooShort index =>
    "invalid length " ++ toString index ++ ", expected struct DeploymentRecord with " ++
      toString fieldCount ++ " elements"
  | .tooLong length =>
    "invalid length " ++ toString length ++ ", expected fewer elements in array"

end Rollout.Record
