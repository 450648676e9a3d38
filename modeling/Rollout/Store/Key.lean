import Rollout.Deployment.Record

/-!
# Byte keys

The byte store orders its rows by byte strings.  A record is kept under its target name, a separator
and its deploy time in twenty digits, so that the rows of one target stand together in time order.  An
index row has the object in front.  A scan takes all keys that begin with a name and the separator:
those from the name with the separator up to, and without, the name with the byte after it.
-/

namespace Rollout

/-- A byte string, compared byte by byte. -/
abbrev ByteKey := List UInt8

namespace ByteKey

/-- The bytes of a text. -/
def ofText (s : String) : ByteKey := s.toUTF8.data.toList

/-- The byte between the parts of a key. -/
def separator : UInt8 := 0

/-- The byte after the separator, which ends a scan. -/
def scanEnd : UInt8 := 1

/-- A deploy time in twenty digits. -/
def ofTime (time : UInt64) : ByteKey :=
  ofText (String.ofList (Instant.padded 20 time.toNat))

/-- The key of a record. -/
def ofRecord (k : RecordKey) : ByteKey := ofText k.deployment ++ separator :: ofTime k.time

/-- The key of a record in the index by object. -/
def ofIndex (object : String) (k : RecordKey) : ByteKey :=
  ofText object ++ separator :: ofRecord k

/-- What the index keys of an object and a target begin with, up to the separator. -/
def ofObject (object deployment : String) : ByteKey :=
  ofText object ++ separator :: ofText deployment

/-- Whether a key lies in the scan of the keys that begin with the given bytes. -/
def inScan (start key : ByteKey) : Bool :=
  compare (start ++ [separator]) key != .gt && compare key (start ++ [scanEnd]) == .lt

end ByteKey

end Rollout
