import Rollout.Deployment.Record.Field
import Rollout.Json.Reading

/-!
# Reading records

`Record.ofText` reads a record from a JSON text without building a value first, so a wrong type is
reported before any fault further on.  A record is an object of its fields, or a list of them in the
order of the declaration, from which the last ones may be missing when they have a default.  Unknown
fields are passed over.

`Record.ofJson` reads a record from a value; its fields are then met in key order.
-/

namespace Rollout.Record

open Json (Parsed SyntaxError)

/-- A fault of the text as a fault of the record. -/
def syntaxFault {α : Type} : Except SyntaxError α → Except Fault α
  | .ok a => .ok a
  | .error e => .error (.notJson e)

/-! ## Contents of a text -/

/-- The fault of what stands ahead where something else was expected. -/
def mismatch {α : Type} (expected : Expected) (c : Char) (rest : List Char) : Except Fault α := do
  match c with
  | 'n' =>
    let _ ← syntaxFault (Json.keyword () ['u', 'l', 'l'] rest)
    throw (.wrongType .null expected)
  | 't' =>
    let _ ← syntaxFault (Json.keyword () ['r', 'u', 'e'] rest)
    throw (.wrongType (.bool true) expected)
  | 'f' =>
    let _ ← syntaxFault (Json.keyword () ['a', 'l', 's', 'e'] rest)
    throw (.wrongType (.bool false) expected)
  | '-' =>
    let (n, _) ← syntaxFault (Json.readMagnitude true rest)
    throw (.wrongType (.number n) expected)
  | '"' =>
    let (s, _) ← syntaxFault (Json.readString rest)
    throw (.wrongType (.text s) expected)
  | '[' => throw (.wrongType .list expected)
  | '{' => throw (.wrongType .map expected)
  | _ =>
    if c.isDigit then
      let (n, _) ← syntaxFault (Json.readMagnitude false (c :: rest))
      throw (.wrongType (.number n) expected)
    throw (.notJson .expectedValue)

/-- A string. -/
def readText (cs : List Char) : Except Fault (Parsed String) :=
  match Json.skipBlanks cs with
  | [] => .error (.notJson .endInValue)
  | '"' :: rest => syntaxFault (Json.readString rest)
  | c :: rest => mismatch .text c rest

/-- The deploy time that a number writes. -/
def timeOf : Number → Except Fault UInt64
  | .integer n h =>
    if n < 0 then .error (.wrongValue (.number (.integer n h)) .time)
    else .ok (UInt64.ofNat n.toNat)
  | .double x => .error (.wrongType (.number (.double x)) .time)

/-- A deploy time. -/
def readTime (cs : List Char) : Except Fault (Parsed UInt64) := do
  match Json.skipBlanks cs with
  | [] => throw (.notJson .endInValue)
  | '-' :: rest =>
    let (n, rest) ← syntaxFault (Json.readMagnitude true rest)
    return (← timeOf n, rest)
  | c :: rest =>
    if c.isDigit then
      let (n, rest) ← syntaxFault (Json.readMagnitude false (c :: rest))
      return (← timeOf n, rest)
    mismatch .time c rest

/-- A truth value. -/
def readFlag (cs : List Char) : Except Fault (Parsed Bool) :=
  match Json.skipBlanks cs with
  | [] => .error (.notJson .endInValue)
  | 't' :: rest => syntaxFault (Json.keyword true ['r', 'u', 'e'] rest)
  | 'f' :: rest => syntaxFault (Json.keyword false ['a', 'l', 's', 'e'] rest)
  | c :: rest => mismatch .flag c rest

/-- A string, or null for its absence. -/
def readOptionalText (cs : List Char) : Except Fault (Parsed (Option String)) :=
  match Json.skipBlanks cs with
  | 'n' :: rest => syntaxFault (Json.keyword none ['u', 'l', 'l'] rest)
  | cs => (readText cs).map fun (s, rest) => (some s, rest)

/-- The members of a map of texts up to its closing brace, added to those read before. -/
def readTextMembers : Nat → Bool → SortedMap String String → List Char →
    Except Fault (Parsed (SortedMap String String))
  | 0, _, _, _ => .error (.notJson .endInObject)
  | fuel + 1, first, m, cs => do
    match ← syntaxFault (Json.aheadInObject first cs) with
    | .closed rest => return (m, rest)
    | .another rest =>
      let (key, rest) ← syntaxFault (Json.readString rest)
      let (value, rest) ← readText (← syntaxFault (Json.readColon rest))
      readTextMembers fuel false (m.insert key value) rest

/-- A map of texts. -/
def readTextMap (cs : List Char) : Except Fault (Parsed (SortedMap String String)) :=
  match Json.skipBlanks cs with
  | [] => .error (.notJson .endInValue)
  | '{' :: rest => readTextMembers (rest.length + 1) true .empty rest
  | c :: rest => mismatch .map c rest

/-- The content of a shape. -/
def readContent : (s : Shape) → List Char → Except Fault (Parsed s.Content)
  | .text, cs => readText cs
  | .optionalText, cs => readOptionalText cs
  | .time, cs => readTime cs
  | .textMap, cs => readTextMap cs
  | .flag, cs => readFlag cs

/-! ## Records of a text -/

/-- The fields of an object up to its closing brace, filled in after those read before. -/
def readFields : Nat → Bool → Draft → List Char → Except Fault (Parsed Draft)
  | 0, _, _, _ => .error (.notJson .endInObject)
  | fuel + 1, first, draft, cs => do
    match ← syntaxFault (Json.aheadInObject first cs) with
    | .closed rest => return (draft, rest)
    | .another rest =>
      let (key, rest) ← syntaxFault (Json.readString rest)
      match Field.ofKey? key with
      | none =>
        let rest ← syntaxFault (Json.readColon rest)
        let rest ← syntaxFault (Json.skipValue (Json.fuelFor rest) rest)
        readFields fuel false draft rest
      | some field =>
        if draft.has field then throw (.duplicateField key)
        let (content, rest) ← readContent field.shape (← syntaxFault (Json.readColon rest))
        readFields fuel false (draft.put field content) rest

/-- Fields that are not listed must have a default; the first without one is reported. -/
def allowMissing : Nat → List Field → Except Fault Unit
  | _, [] => .ok ()
  | index, field :: rest =>
    if field.hasDefault then allowMissing (index + 1) rest else .error (.tooShort index)

/-- The closing bracket behind the last field. -/
def closeList (cs : List Char) : Except SyntaxError (List Char) :=
  match Json.skipBlanks cs with
  | [] => .error .endInList
  | ']' :: rest => .ok rest
  | ',' :: rest =>
    match Json.skipBlanks rest with
    | ']' :: _ => .error .trailingComma
    | _ => .error .trailingCharacters
  | _ => .error .trailingCharacters

/-- The fields of a list in the order of the declaration, from the field at an index. -/
def readListed (index : Nat) (draft : Draft) : List Field → List Char → Except Fault (Parsed Draft)
  | [], cs => do return (draft, ← syntaxFault (closeList cs))
  | field :: rest, cs => do
    match ← syntaxFault (Json.aheadInList (index == 0) cs) with
    | .closed cs =>
      allowMissing index (field :: rest)
      return (draft, cs)
    | .another cs =>
      let (content, cs) ← readContent field.shape cs
      readListed (index + 1) (draft.put field content) rest cs

/-- The record that a text holds. -/
def ofText (text : String) : Except Fault Record := do
  match Json.skipBlanks text.toList with
  | [] => throw (.notJson .endInValue)
  | '{' :: rest =>
    let (draft, rest) ← readFields (rest.length + 1) true {} rest
    let record ← draft.finish
    syntaxFault (Json.atEnd rest)
    return record
  | '[' :: rest =>
    let (draft, rest) ← readListed 0 {} Field.all rest
    let record ← draft.finish
    syntaxFault (Json.atEnd rest)
    return record
  | c :: rest => mismatch .record c rest

/-! ## Records of a value -/

/-- What a value is. -/
def Found.ofJson : Json → Found
  | .null => .null
  | .bool b => .bool b
  | .number n => .number n
  | .string s => .text s
  | .array _ => .list
  | .object _ => .map

/-- The text that a value is. -/
def textOf : Json → Except Fault String
  | .string s => .ok s
  | j => .error (.wrongType (.ofJson j) .text)

/-- The content of a shape that a value holds. -/
def contentOf : (s : Shape) → Json → Except Fault s.Content
  | .text, j => textOf j
  | .optionalText, .null => .ok none
  | .optionalText, j => (textOf j).map some
  | .time, .number n => timeOf n
  | .time, j => .error (.wrongType (.ofJson j) .time)
  | .textMap, .object members =>
    members.foldlM (fun m e => do return m.insert e.1 (← textOf e.2)) SortedMap.empty
  | .textMap, j => .error (.wrongType (.ofJson j) .map)
  | .flag, .bool b => .ok b
  | .flag, j => .error (.wrongType (.ofJson j) .flag)

/-- Fill in the members that are fields. -/
def fillMembers (draft : Draft) : List (String × Json) → Except Fault Draft
  | [] => .ok draft
  | (key, j) :: rest =>
    match Field.ofKey? key with
    | none => fillMembers draft rest
    | some field => do
      if draft.has field then throw (.duplicateField key)
      fillMembers (draft.put field (← contentOf field.shape j)) rest

/-- Fill in the items as fields in the order of the declaration. -/
def fillItems (index : Nat) (draft : Draft) : List Field → List Json → Except Fault Draft
  | [], [] => .ok draft
  | [], rest => .error (.tooLong (index + rest.length))
  | field :: rest, [] => do
    allowMissing index (field :: rest)
    return draft
  | field :: rest, item :: items => do
    fillItems (index + 1) (draft.put field (← contentOf field.shape item)) rest items

/-- The record that a value holds. -/
def ofJson : Json → Except Fault Record
  | .object members => do (← fillMembers {} members).finish
  | .array items => do (← fillItems 0 {} Field.all items).finish
  | j => .error (.wrongType (.ofJson j) .record)

end Rollout.Record
