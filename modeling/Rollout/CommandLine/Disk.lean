import Rollout.Store.Bytes
import Rollout.Text.Segments

/-!
# Disks

What the commands need of a file system: making directories, reading and writing text files, and
record stores that live in a file.
-/

namespace Rollout

/-- Why an operation on a file failed. -/
inductive FileFault where
  | notFound
  | alreadyExists
  | notADirectory
  | isADirectory
  /-- The bytes of the file are no text. -/
  | notText
  | other (detail : String)
deriving DecidableEq

/-- The wording of a fault. -/
def FileFault.message : FileFault → String
  | .notFound => "No such file or directory (os error 2)"
  | .alreadyExists => "File exists (os error 17)"
  | .notADirectory => "Not a directory (os error 20)"
  | .isADirectory => "Is a directory (os error 21)"
  | .notText => "stream did not contain valid UTF-8"
  | .other detail => detail

/-- The path of the directory that holds the entry at a path; empty for the working directory. -/
def parentPath (path : String) : String :=
  match (segments '/' path).dropLast with
  | [""] => "/"
  | names => "/".intercalate names

/-- A file system on which commands run in `m`. -/
class Disk (m : Type → Type) where
  /-- Make a directory and those above it, so far as they are missing. -/
  makeDirectories : (path : String) → m (Except FileFault Unit)
  readText : (path : String) → m (Except FileFault String)
  /-- Write a file, which is made or replaced. -/
  writeText : (path text : String) → m (Except FileFault Unit)
  /-- Open the record store in a file; a missing one is made, with the directories above it. -/
  openStore : (path : String) → m (Except StoreError ByteStore)
  /-- Keep the new content of an open record store. -/
  saveStore : (path : String) → ByteStore → m Unit

end Rollout
