import Rollout.CommandLine.Disk

/-!
# A folder as a disk

A working folder in memory: what lies in it, under paths of names.  Paths that begin with a slash or
lead above the folder go to places of which nothing is known, where no entry is; that they are
directories is taken for granted.
-/

namespace Rollout

/-- What lies at a path. -/
inductive Entry where
  | text (content : String)
  | store (content : ByteStore)
  | directory
deriving DecidableEq

/-- The names on the way from the working folder to an entry.  The name `/` stands for the root, and
`..` for the directory above; both come first only. -/
abbrev Location := List String

namespace Location

/-- Where a path begins, and its names. -/
def ofPath (path : String) : Location × List String :=
  match segments '/' path with
  | "" :: rest => if rest.isEmpty then ([], []) else (["/"], rest)
  | names => ([], names)

/-- The directory above. -/
def above (here : Location) : Location :=
  if here = ["/"] then here
  else if here.all (· = "..") then here ++ [".."]
  else here.dropLast

/-- Whether a place outside the working folder, or the folder itself, is meant. -/
def isOutside (here : Location) : Bool := here = ["/"] || here.all (· = "..")

end Location

/-- A working folder. -/
structure Folder where
  entries : SortedMap Location Entry := .empty

namespace Folder

/-- What lies at a location. -/
def entry? (f : Folder) (here : Location) : Option Entry :=
  if Location.isOutside here then some .directory else f.entries.get? here

/-- Put an entry at a location. -/
def set (f : Folder) (here : Location) (e : Entry) : Folder := ⟨f.entries.insert here e⟩

/-- Follow names from a directory.  The last one need not exist. -/
def follow (f : Folder) : Location → List String → Except FileFault Location
  | here, [] => .ok here
  | here, name :: rest =>
    match f.entry? here with
    | none => .error .notFound
    | some .directory =>
      if name = "" || name = "." then follow f here rest
      else if name = ".." then follow f (Location.above here) rest
      else follow f (here ++ [name]) rest
    | some _ => .error .notADirectory

/-- The location of a path. -/
def locate (f : Folder) (path : String) : Except FileFault Location :=
  let (start, names) := Location.ofPath path
  f.follow start names

/-- Make the missing directories on the way. -/
def makeAlong (f : Folder) : Location → List String → Except FileFault Folder
  | _, [] => .ok f
  | here, name :: rest =>
    if name = "" || name = "." then makeAlong f here rest
    else if name = ".." then makeAlong f (Location.above here) rest
    else
      let next := here ++ [name]
      match f.entry? next with
      | none => makeAlong (f.set next .directory) next rest
      | some .directory => makeAlong f next rest
      | some _ => .error (if rest.all (· = "") then .alreadyExists else .notADirectory)

/-- Make a directory and those above it. -/
def makeDirectories (f : Folder) (path : String) : Except FileFault Folder :=
  let (start, names) := Location.ofPath path
  f.makeAlong start names

/-- The text of a file. -/
def readText (f : Folder) (path : String) : Except FileFault String := do
  match f.entry? (← f.locate path) with
  | none => throw .notFound
  | some (.text content) => return content
  | some (.store _) => throw .notText
  | some .directory => throw .isADirectory

/-- Write a text file. -/
def writeText (f : Folder) (path text : String) : Except FileFault Folder := do
  let here ← f.locate path
  if path.endsWith "/" || f.entry? here = some .directory then throw .isADirectory
  return f.set here (.text text)

/-- Open the record store in a file.  An empty file becomes a store; any other text is none. -/
def openStore (f : Folder) (path : String) : Except StoreError (ByteStore × Folder) := do
  let f ← (f.makeDirectories (parentPath path)).mapError fun fault =>
    .backend ("Failed to create record store directory: " ++ fault.message)
  let here ← (f.locate path).mapError fun fault => .backend ("I/O error: " ++ fault.message)
  let fresh : ByteStore := RecordStore.empty
  match f.entry? here with
  | some (.store content) => return (content, f)
  | none => return (fresh, f.set here (.store fresh))
  | some (.text "") => return (fresh, f.set here (.store fresh))
  | some (.text _) => throw (.backend "I/O error: invalid data")
  | some .directory => throw (.backend ("I/O error: " ++ FileFault.isADirectory.message))

/-- Keep the content of an open record store. -/
def saveStore (f : Folder) (path : String) (content : ByteStore) : Folder :=
  match f.locate path with
  | .ok here => f.set here (.store content)
  | .error _ => f

/-- Carry out a change that may fail; a failure changes nothing. -/
def attempt {ε α : Type} (change : Folder → Except ε (α × Folder)) :
    StateM Folder (Except ε α) := fun f =>
  match change f with
  | .ok (a, f) => (.ok a, f)
  | .error e => (.error e, f)

instance : Disk (StateM Folder) where
  makeDirectories path := attempt fun f => (f.makeDirectories path).map ((), ·)
  readText path := attempt fun f => (f.readText path).map (·, f)
  writeText path text := attempt fun f => (f.writeText path text).map ((), ·)
  openStore path := attempt fun f => f.openStore path
  saveStore path content := modify fun f => f.saveStore path content

/-- Write a text file, and make the directories that hold it. -/
def addText (f : Folder) (path text : String) : Except FileFault Folder := do
  (← f.makeDirectories (parentPath path)).writeText path text

/-- The folder with the given text files. -/
def ofFiles (files : List (String × String)) : Except FileFault Folder :=
  files.foldlM (fun f file => f.addText file.1 file.2) {}

end Folder

end Rollout
