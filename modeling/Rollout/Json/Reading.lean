import Rollout.Json.Scalar

/-!
# Reading JSON values

`Json.ofText` reads a text that holds one value between blanks.  Objects are sorted by key as they
are read, and a repeated key keeps its last value.  At most `nestingLimit` containers are nested.

The readers carry fuel beside the characters.  Each of them leaves less than it was given, so twice
the length of the text is enough and `ofText` hides it.
-/

namespace Rollout.Json

/-- How many containers may be nested. -/
def nestingLimit : Nat := 127

/-! ## Separators -/

/-- What stands ahead inside a container. -/
inductive Ahead where
  | closed (rest : List Char)
  | another (rest : List Char)

/-- Before an item: the end of the list, or the next item behind its comma. -/
def aheadInList (first : Bool) (cs : List Char) : Except SyntaxError Ahead :=
  match skipBlanks cs with
  | [] => .error .endInList
  | ']' :: rest => .ok (.closed rest)
  | c :: rest =>
    if first then .ok (.another (c :: rest))
    else if c = ',' then
      match skipBlanks rest with
      | [] => .error .endInValue
      | ']' :: _ => .error .trailingComma
      | more => .ok (.another more)
    else .error .expectedListSeparator

/-- Before a member: the end of the object, or the next key behind its comma and quotation mark. -/
def aheadInObject (first : Bool) (cs : List Char) : Except SyntaxError Ahead :=
  match skipBlanks cs with
  | [] => .error .endInObject
  | '}' :: rest => .ok (.closed rest)
  | c :: rest =>
    if first then
      if c = '"' then .ok (.another rest) else .error .keyNotString
    else if c = ',' then
      match skipBlanks rest with
      | [] => .error .endInValue
      | '"' :: rest => .ok (.another rest)
      | '}' :: _ => .error .trailingComma
      | _ => .error .keyNotString
    else .error .expectedObjectSeparator

/-- The colon behind a key. -/
def readColon (cs : List Char) : Except SyntaxError (List Char) :=
  match skipBlanks cs with
  | [] => .error .endInObject
  | ':' :: rest => .ok rest
  | _ => .error .expectedColon

/-! ## Values -/

mutual

/-- One value; `room` is the number of containers that may still be opened. -/
def readValue : Nat → Nat → List Char → Except SyntaxError (Parsed Json)
  | 0, _, _ => .error .endInValue
  | fuel + 1, room, cs =>
    match skipBlanks cs with
    | [] => .error .endInValue
    | c :: rest =>
      match c with
      | 'n' => keyword .null ['u', 'l', 'l'] rest
      | 't' => keyword (.bool true) ['r', 'u', 'e'] rest
      | 'f' => keyword (.bool false) ['a', 'l', 's', 'e'] rest
      | '"' => do
        let (s, rest) ← readString rest
        return (.string s, rest)
      | '[' =>
        match room with
        | 0 => .error .tooDeep
        | room + 1 => do
          let (items, rest) ← readItems fuel room true rest
          return (.array items, rest)
      | '{' =>
        match room with
        | 0 => .error .tooDeep
        | room + 1 => do
          let (members, rest) ← readMembers fuel room true [] rest
          return (.object members, rest)
      | '-' => do
        let (n, rest) ← readMagnitude true rest
        return (.number n, rest)
      | _ =>
        if c.isDigit then do
          let (n, rest) ← readMagnitude false (c :: rest)
          return (.number n, rest)
        else .error .expectedValue

/-- The items of a list up to its closing bracket. -/
def readItems : Nat → Nat → Bool → List Char → Except SyntaxError (Parsed (List Json))
  | 0, _, _, _ => .error .endInList
  | fuel + 1, room, first, cs => do
    match ← aheadInList first cs with
    | .closed rest => return ([], rest)
    | .another rest =>
      let (item, rest) ← readValue fuel room rest
      let (items, rest) ← readItems fuel room false rest
      return (item :: items, rest)

/-- The members of an object up to its closing brace, added to those read before. -/
def readMembers : Nat → Nat → Bool → List (String × Json) → List Char →
    Except SyntaxError (Parsed (List (String × Json)))
  | 0, _, _, _, _ => .error .endInObject
  | fuel + 1, room, first, members, cs => do
    match ← aheadInObject first cs with
    | .closed rest => return (members, rest)
    | .another rest =>
      let (key, rest) ← readString rest
      let (value, rest) ← readValue fuel room (← readColon rest)
      readMembers fuel room false (Entries.insert key value members) rest

end

/-- Nothing but blanks may follow a value. -/
def atEnd (cs : List Char) : Except SyntaxError Unit :=
  if (skipBlanks cs).isEmpty then .ok () else .error .trailingCharacters

/-- The fuel that suffices for the given characters. -/
def fuelFor (cs : List Char) : Nat := 2 * cs.length + 2

/-- The value that a text holds. -/
def ofText (text : String) : Except SyntaxError Json := do
  let cs := text.toList
  let (value, rest) ← readValue (fuelFor cs) nestingLimit cs
  atEnd rest
  return value

/-! ## Values that nobody looks at

A value that is only passed over is checked more loosely: numbers may be of any size, hexadecimal
escapes need only their digits, nesting is unlimited, and a missing item behind a comma is reported
as a missing value or key. -/

/-- Pass over a string, the opening quotation mark being behind. -/
def skipString : (fuel : List Char) → List Char → Except SyntaxError (List Char)
  | [], _ => .error .endInString
  | _ :: _, [] => .error .endInString
  | _ :: fuel, c :: rest =>
    if c = '"' then .ok rest
    else if c = '\\' then
      match rest with
      | [] => .error .endInString
      | 'u' :: rest => do
        let (_, rest) ← readHex4 rest
        skipString fuel rest
      | e :: rest => if (shortEscape? e).isSome then skipString fuel rest else .error .invalidEscape
    else if c.toNat < 0x20 then .error .controlCharacter
    else skipString fuel rest

/-- Pass over digits, of which there must be one. -/
def skipDigits (cs : List Char) : Except SyntaxError (List Char) :=
  match cs with
  | [] => .error .invalidNumber
  | c :: _ => if c.isDigit then .ok (cs.dropWhile Char.isDigit) else .error .invalidNumber

/-- Pass over an exponent behind its letter. -/
def skipExponent (cs : List Char) : Except SyntaxError (List Char) :=
  match cs with
  | '+' :: rest => skipDigits rest
  | '-' :: rest => skipDigits rest
  | _ => skipDigits cs

/-- Pass over a number behind its sign. -/
def skipNumber (cs : List Char) : Except SyntaxError (List Char) := do
  match cs with
  | '0' :: c :: _ => if c.isDigit then throw .invalidNumber
  | _ => pure ()
  let rest ← skipDigits cs
  let rest ← match rest with
    | '.' :: rest => skipDigits rest
    | _ => .ok rest
  match rest with
  | 'e' :: rest => skipExponent rest
  | 'E' :: rest => skipExponent rest
  | _ => return rest

mutual

/-- Pass over a value. -/
def skipValue : Nat → List Char → Except SyntaxError (List Char)
  | 0, _ => .error .endInValue
  | fuel + 1, cs =>
    match skipBlanks cs with
    | [] => .error .endInValue
    | c :: rest =>
      match c with
      | 'n' => (keyword () ['u', 'l', 'l'] rest).map Prod.snd
      | 't' => (keyword () ['r', 'u', 'e'] rest).map Prod.snd
      | 'f' => (keyword () ['a', 'l', 's', 'e'] rest).map Prod.snd
      | '"' => skipString rest rest
      | '[' => skipItems fuel true rest
      | '{' => skipMembers fuel true rest
      | '-' => skipNumber rest
      | _ => if c.isDigit then skipNumber (c :: rest) else .error .expectedValue

/-- Pass over the items of a list and its closing bracket. -/
def skipItems : Nat → Bool → List Char → Except SyntaxError (List Char)
  | 0, _, _ => .error .endInList
  | fuel + 1, first, cs =>
    match skipBlanks cs with
    | [] => .error .endInList
    | ']' :: rest => .ok rest
    | c :: rest =>
      if first then do skipItems fuel false (← skipValue fuel (c :: rest))
      else if c = ',' then do skipItems fuel false (← skipValue fuel rest)
      else .error .expectedListSeparator

/-- Pass over the members of an object and its closing brace. -/
def skipMembers : Nat → Bool → List Char → Except SyntaxError (List Char)
  | 0, _, _ => .error .endInObject
  | fuel + 1, first, cs =>
    match skipBlanks cs with
    | [] => .error .endInObject
    | '}' :: rest => .ok rest
    | c :: rest =>
      if first then do skipMembers fuel false (← skipMember fuel (c :: rest))
      else if c = ',' then do skipMembers fuel false (← skipMember fuel (skipBlanks rest))
      else .error .expectedObjectSeparator

/-- Pass over a key, its colon and its value. -/
def skipMember : Nat → List Char → Except SyntaxError (List Char)
  | 0, _ => .error .endInObject
  | fuel + 1, cs =>
    match cs with
    | [] => .error .endInObject
    | '"' :: rest => do skipValue fuel (← readColon (← skipString rest rest))
    | _ => .error .keyNotString

end

example : ofText "[true, \x7b\"a\": false, \"a\": null\x7d]"
    = .ok (.array [.bool true, .object [("a", .null)]]) := by decide +kernel
example : ofText "[true,]" = .error .trailingComma := by decide +kernel

end Rollout.Json
