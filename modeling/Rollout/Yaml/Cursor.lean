import Rollout.Yaml.Character

/-!
# Places in a YAML text

A cursor is the characters ahead and the position of the first of them.  Layout is told by
positions: the column decides which block a token belongs to, and a key stands on one line.
-/

namespace Rollout.Yaml

/-- A place in a text, lines and columns counted from zero. -/
structure Position where
  line : Nat
  column : Nat
deriving DecidableEq

/-- The position behind a character. -/
def Position.past (p : Position) (c : Char) : Position :=
  if isBreak c then ⟨p.line + 1, 0⟩ else ⟨p.line, p.column + 1⟩

/-- The characters ahead and where they begin. -/
structure Cursor where
  ahead : List Char
  position : Position
deriving DecidableEq

namespace Cursor

/-- The beginning of a text.  A byte order mark is passed over and keeps its column. -/
def ofChars : List Char → Cursor
  | '\ufeff' :: rest => ⟨rest, ⟨0, 1⟩⟩
  | chars => ⟨chars, ⟨0, 0⟩⟩

/-- The column of the next character. -/
def column (here : Cursor) : Nat := here.position.column

/-- Pass over the given number of characters. -/
def skip : Nat → Cursor → Cursor
  | 0, here => here
  | n + 1, here =>
    match here.ahead with
    | [] => here
    | c :: rest => skip n ⟨rest, here.position.past c⟩

/-- The characters up to the first that fails the test, and the cursor there. -/
def span (test : Char → Bool) (here : Cursor) : List Char × Cursor :=
  let run := here.ahead.takeWhile test
  (run, ⟨here.ahead.dropWhile test, run.foldl Position.past here.position⟩)

/-- Pass over the characters that fulfil the test. -/
def skipWhile (test : Char → Bool) (here : Cursor) : Cursor := (here.span test).2

/-- Whether a line of three equal marks, possibly followed by a blank and more, begins here. -/
def atMarker (mark : Char) (here : Cursor) : Bool :=
  here.column = 0 &&
    match here.ahead with
    | a :: b :: c :: rest => a = mark && b = mark && c = mark && wordEnds rest
    | _ => false

/-- Whether the beginning or the end of a document is marked here. -/
def atDocumentMarker (here : Cursor) : Bool := here.atMarker '-' || here.atMarker '.'

/-- Fuel for a reader that takes a character at every step but the last: a list of one item more than
there are characters ahead. -/
def fuel (here : Cursor) : List Char := ' ' :: here.ahead

end Cursor

/-- What was read, and the cursor behind it. -/
abbrev Lexeme (α : Type) := α × Cursor

end Rollout.Yaml
