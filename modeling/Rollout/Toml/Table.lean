import Rollout.SortedMap

/-!
# TOML tables

Values and tables, and the three statements that build a table: an assignment to a key, the header
of a table and the header of a further element of an array of tables.  How a table came about decides
what may still be added to it, so each carries its origin.  A statement that would define a key twice
or reach into a finished value has no result.
-/

namespace Rollout.Toml

/-- How a table came about. -/
inductive Origin where
  /-- By a header of its own. -/
  | header
  /-- On the way to the table of a header. -/
  | implied
  /-- On the way of a dotted key. -/
  | dotted
  /-- Between braces; nothing can be added. -/
  | inline
deriving DecidableEq

/-- A value.  Entries are kept in the order of their keys. -/
inductive Value where
  | string (text : String)
  | integer (value : Int)
  | float (value : Float)
  | boolean (value : Bool)
  /-- A date, a time or both; nothing asks for its content. -/
  | moment
  | array (items : List Value)
  | table (origin : Origin) (entries : List (String × Value))
  /-- An array of tables, each by a header of its own. -/
  | tables (elements : List (List (String × Value)))

/-- The entries of a table. -/
abbrev Table := List (String × Value)

namespace Table

/-- Assign a value to a key, of which the last part must be new.  The parts before it name tables
that dotted keys made or make; the innermost of them must not have any other origin. -/
def assign (value : Value) : List String → Table → Option Table
  | [], _ => none
  | [part], t => if (t.lookup part).isSome then none else some (Entries.insert part value t)
  | part :: rest, t => do
    let endsHere := rest.length = 1
    match t.lookup part with
    | none => return Entries.insert part (.table .dotted (← assign value rest [])) t
    | some (.table .dotted inner) =>
      return Entries.insert part (.table .dotted (← assign value rest inner)) t
    | some (.table .implied inner) =>
      if endsHere then none
      return Entries.insert part (.table .implied (← assign value rest inner)) t
    | some (.tables elements) =>
      if endsHere then none
      let last ← assign value rest (← elements.getLast?)
      return Entries.insert part (.tables (elements.dropLast ++ [last])) t
    | some _ => none

/-- Change the table at a path, making the tables on the way; of an array of tables the last element
is meant. -/
def within (change : Table → Option Table) : List String → Table → Option Table
  | [], t => change t
  | part :: rest, t => do
    match t.lookup part with
    | none => return Entries.insert part (.table .implied (← within change rest [])) t
    | some (.table .inline _) => none
    | some (.table origin inner) =>
      return Entries.insert part (.table origin (← within change rest inner)) t
    | some (.tables elements) =>
      let last ← within change rest (← elements.getLast?)
      return Entries.insert part (.tables (elements.dropLast ++ [last])) t
    | some _ => none

/-- Define a table by its header.  It may have been implied before. -/
def openTable (part : String) (t : Table) : Option Table :=
  match t.lookup part with
  | none => some (Entries.insert part (.table .header []) t)
  | some (.table .implied inner) => some (Entries.insert part (.table .header inner) t)
  | some _ => none

/-- Add an element to an array of tables by its header. -/
def openElement (part : String) (t : Table) : Option Table :=
  match t.lookup part with
  | none => some (Entries.insert part (.tables [[]]) t)
  | some (.tables elements) => some (Entries.insert part (.tables (elements ++ [[]])) t)
  | some _ => none

end Table

/-! ## Documents -/

/-- A statement; the parts of its key or path are never none. -/
inductive Statement where
  | assignment (key : List String) (value : Value)
  | tableHeader (path : List String)
  | elementHeader (path : List String)

/-- A document so far: its table, and the path that assignments refer to. -/
structure Draft where
  table : Table := []
  path : List String := []

/-- Carry out a statement. -/
def Draft.apply (d : Draft) : Statement → Option Draft
  | .assignment key value => do
    return { d with table := ← Table.within (Table.assign value key) d.path d.table }
  | .tableHeader path => do
    let table ← Table.within (Table.openTable (← path.getLast?)) path.dropLast d.table
    return { table, path }
  | .elementHeader path => do
    let table ← Table.within (Table.openElement (← path.getLast?)) path.dropLast d.table
    return { table, path }

/-- The table that statements build. -/
def Table.ofStatements (statements : List Statement) : Option Table := do
  return (← statements.foldlM Draft.apply {}).table

/-- The table that the assignments between braces build. -/
def Table.ofAssignments (assignments : List (List String × Value)) : Option Table :=
  assignments.foldlM (fun t (key, value) => t.assign value key) []

end Rollout.Toml
