import Rollout.Toml.Scalar

/-!
# Reading TOML texts

`Table.ofText?` gives the table that a text writes: statements, one to a line, that may be followed
by a comment.  Arrays and tables between braces nest at most `depthLimit` deep, and a key has at most
as many parts.
-/

namespace Rollout.Toml

/-- How deep arrays and tables may nest, and how many parts a key may have. -/
def depthLimit : Nat := 79

/-! ## Comments and keys -/

/-- Pass over a comment, if one begins here. -/
def skipComment : List Char → List Char
  | '#' :: rest => rest.dropWhile isPrintable
  | cs => cs

/-- Pass over blanks and comments up to the last line break, with fuel for each of the lines. -/
def skipLines : (fuel : List Char) → List Char → List Char
  | [], cs => cs
  | _ :: fuel, cs =>
    let behind := skipComment (skipBlanks cs)
    match lineBreak behind with
    | some rest => skipLines fuel rest
    | none => behind

/-- Pass over blanks, comments and line breaks. -/
def skipFiller (cs : List Char) : List Char := skipLines cs cs

/-- The characters of a key that needs no quotation marks. -/
def isBareKeyChar (c : Char) : Bool := c.isAlphanum || c = '_' || c = '-'

/-- One part of a key. -/
def readPart (cs : List Char) : Option (Parsed String) := do
  match cs with
  | [] => none
  | c :: rest =>
    if c = '"' || c = '\x27' then
      let (text, rest) ← lineString c rest rest
      return (String.ofList text, rest)
    let bare := cs.takeWhile isBareKeyChar
    if bare.isEmpty then none
    return (String.ofList bare, cs.dropWhile isBareKeyChar)

/-- The parts of a key, with a point between two of them and blanks around each. -/
def readParts : Nat → List Char → Option (Parsed (List String))
  | 0, _ => none
  | fuel + 1, cs => do
    let (part, rest) ← readPart (skipBlanks cs)
    match skipBlanks rest with
    | '.' :: rest =>
      let (more, rest) ← readParts fuel rest
      return (part :: more, rest)
    | rest => return ([part], rest)

/-- A key. -/
def readKey (cs : List Char) : Option (Parsed (List String)) := readParts depthLimit cs

/-! ## Values -/

mutual

/-- A value; `room` is the number of arrays and tables that may still be opened. -/
def readValue : Nat → Nat → List Char → Option (Parsed Value)
  | 0, _, _ => none
  | fuel + 1, room, cs =>
    match cs with
    | '[' :: rest =>
      match room with
      | 0 => none
      | room + 1 => do
        let (items, rest) ← readItems fuel room rest
        return (.array items, rest)
    | '\x7b' :: rest =>
      match room with
      | 0 => none
      | room + 1 => do
        match skipBlanks rest with
        | '\x7d' :: rest => return (.table .inline [], rest)
        | rest =>
          let (assignments, rest) ← readAssignments fuel room rest
          return (.table .inline (← Table.ofAssignments assignments), rest)
    | _ => readScalar cs

/-- The items of an array up to its end; a comma may follow the last one. -/
def readItems : Nat → Nat → List Char → Option (Parsed (List Value))
  | 0, _, _ => none
  | fuel + 1, room, cs =>
    match skipFiller cs with
    | ']' :: rest => some ([], rest)
    | cs => do
      let (item, rest) ← readValue fuel room cs
      match skipFiller rest with
      | ',' :: rest =>
        let (items, rest) ← readItems fuel room rest
        return (item :: items, rest)
      | ']' :: rest => return ([item], rest)
      | _ => none

/-- The assignments between braces up to the closing one. -/
def readAssignments : Nat → Nat → List Char → Option (Parsed (List (List String × Value)))
  | 0, _, _ => none
  | fuel + 1, room, cs => do
    let (key, rest) ← readKey cs
    let (value, rest) ← readValue fuel room (skipBlanks (← expect ['='] rest))
    match skipBlanks rest with
    | ',' :: rest =>
      let (assignments, rest) ← readAssignments fuel room rest
      return ((key, value) :: assignments, rest)
    | '\x7d' :: rest => return ([(key, value)], rest)
    | _ => none

end

/-! ## Documents -/

/-- A statement at the head of a line. -/
def readStatement (cs : List Char) : Option (Parsed Statement) := do
  match cs with
  | '[' :: '[' :: rest =>
    let (path, rest) ← readKey rest
    return (.elementHeader path, ← expect [']', ']'] rest)
  | '[' :: rest =>
    let (path, rest) ← readKey rest
    return (.tableHeader path, ← expect [']'] rest)
  | _ =>
    let (key, rest) ← readKey cs
    let (value, rest) ←
      readValue (2 * cs.length + 2) depthLimit (skipBlanks (← expect ['='] rest))
    return (.assignment key value, rest)

/-- The statements from here on, each on lines of its own. -/
def readStatements : (fuel : List Char) → List Char → Option (List Statement)
  | [], cs => if cs.isEmpty then some [] else none
  | _ :: fuel, cs =>
    match skipFiller cs with
    | [] => some []
    | cs => do
      let (statement, rest) ← readStatement cs
      let behind := skipComment (skipBlanks rest)
      if behind.isEmpty then return [statement]
      return statement :: (← readStatements fuel (← lineBreak behind))

/-- The table that a text writes; a byte order mark may stand before it. -/
def Table.ofText? (text : String) : Option Table := do
  let cs := match text.toList with
    | '\ufeff' :: rest => rest
    | cs => cs
  Table.ofStatements (← readStatements cs cs)

end Rollout.Toml
