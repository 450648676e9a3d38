import Rollout.Decimal.Nearest
import Rollout.Json.Basic
import Rollout.Json.SyntaxError

/-!
# Scalars of a JSON text

Readers of keywords, strings and numbers.  A reader takes the characters ahead and returns what it
read together with the characters behind it.

A number without fraction and exponent is an integer when it fits a 64-bit range; `-0` is the double
negative zero.  Any other number is read as a natural significand of at most 64 bits (further digits
only shift the exponent) and a power of ten, and the double is the significand, rounded, multiplied
or divided by the rounded power of ten; `scaleByTen` states this rule.
-/

namespace Rollout.Json

/-- What a reader has read, and the characters behind it. -/
abbrev Parsed (α : Type) := α × List Char

/-! ## Blanks and keywords -/

/-- The four blank characters. -/
def isBlank (c : Char) : Bool := c = ' ' || c = '\t' || c = '\n' || c = '\r'

/-- The characters from the first that is not blank. -/
def skipBlanks : List Char → List Char
  | c :: rest => if isBlank c then skipBlanks rest else c :: rest
  | [] => []

/-- Read the given characters, the rest of a keyword. -/
def keyword {α : Type} (value : α) : List Char → List Char → Except SyntaxError (Parsed α)
  | [], rest => .ok (value, rest)
  | _ :: _, [] => .error .endInValue
  | expected :: more, c :: rest =>
    if c = expected then keyword value more rest else .error .brokenKeyword

/-! ## Strings -/

/-- The number of bytes in the encoding of the characters. -/
def byteCount (cs : List Char) : Nat := cs.foldl (fun n c => n + c.utf8Size) 0

/-- Four hexadecimal digits.  With fewer than four bytes ahead the string is cut short; any other
character among the four is a wrong escape. -/
def readHex4 : List Char → Except SyntaxError (Parsed Nat)
  | a :: b :: c :: d :: rest =>
    match digitValue? 16 a, digitValue? 16 b, digitValue? 16 c, digitValue? 16 d with
    | some a, some b, some c, some d => .ok (((a * 16 + b) * 16 + c) * 16 + d, rest)
    | _, _, _, _ => .error .invalidEscape
  | short => .error (if byteCount short < 4 then .endInString else .invalidEscape)

/-- Whether a code unit is the leading half of a surrogate pair. -/
def isLeading (unit : Nat) : Bool := 0xD800 ≤ unit && unit ≤ 0xDBFF

/-- Whether a code unit is the trailing half of a surrogate pair. -/
def isTrailing (unit : Nat) : Bool := 0xDC00 ≤ unit && unit ≤ 0xDFFF

/-- The character of a hexadecimal escape, behind its `\u`.  A leading surrogate takes the trailing
one from the escape that must follow. -/
def readUnicodeEscape (cs : List Char) : Except SyntaxError (Parsed Char) := do
  let (first, rest) ← readHex4 cs
  if isTrailing first then throw .loneSurrogate
  if !isLeading first then return (Char.ofNat first, rest)
  match rest with
  | [] => throw .endInString
  | ['\\'] => throw .endInString
  | '\\' :: 'u' :: rest =>
    let (second, rest) ← readHex4 rest
    if isTrailing second then
      return (Char.ofNat (0x10000 + (first - 0xD800) * 0x400 + (second - 0xDC00)), rest)
    throw .loneSurrogate
  | _ => throw .truncatedSurrogatePair

/-- The character that a one-letter escape stands for. -/
def shortEscape? (c : Char) : Option Char :=
  match c with
  | '"' => some '"'
  | '\\' => some '\\'
  | '/' => some '/'
  | 'b' => some '\x08'
  | 'f' => some '\x0c'
  | 'n' => some '\n'
  | 'r' => some '\r'
  | 't' => some '\t'
  | _ => none

/-- The characters of a string up to its closing quotation mark, the opening one being behind.  Every
step takes a character at least, so a list as long as the text is fuel enough. -/
def stringChars : (fuel : List Char) → List Char → Except SyntaxError (Parsed (List Char))
  | [], _ => .error .endInString
  | _ :: _, [] => .error .endInString
  | _ :: fuel, c :: rest =>
    if c = '"' then .ok ([], rest)
    else if c = '\\' then
      match rest with
      | [] => .error .endInString
      | 'u' :: rest => do
        let (c, rest) ← readUnicodeEscape rest
        let (more, rest) ← stringChars fuel rest
        return (c :: more, rest)
      | e :: rest =>
        match shortEscape? e with
        | some c => do
          let (more, rest) ← stringChars fuel rest
          return (c :: more, rest)
        | none => .error .invalidEscape
    else if c.toNat < 0x20 then .error .controlCharacter
    else do
      let (more, rest) ← stringChars fuel rest
      return (c :: more, rest)

/-- A string, the opening quotation mark being behind. -/
def readString (cs : List Char) : Except SyntaxError (Parsed String) := do
  let (chars, rest) ← stringChars cs cs
  return (String.ofList chars, rest)

/-! ## Numbers -/

/-- The power of ten as a double, for exponents up to 308. -/
def powerOfTen (exponent : Nat) : Float := Decimal.toFloat ⟨1, exponent⟩

/-- Divide by powers of ten until the exponent is used up, 308 places at a time; three rounds bring
every significand of 64 bits to zero. -/
def shrinkByTen : Nat → Float → Nat → Float
  | 0, x, _ => x
  | rounds + 1, x, exponent =>
    if exponent ≤ 308 then x / powerOfTen exponent
    else if x == 0 then x
    else shrinkByTen rounds (x / powerOfTen 308) (exponent - 308)

/-- The double of a significand and a power of ten; none when it is too large. -/
def scaleByTen (significand : Nat) (exponent : Int) : Option Float :=
  let x := Float.ofNat significand
  if exponent < 0 then some (shrinkByTen 4 x exponent.natAbs)
  else if exponent ≤ 308 then
    let y := x * powerOfTen exponent.natAbs
    if y.isInf then none else some y
  else if significand = 0 then some x
  else none

/-- Append digits to a significand while it stays below `2 ^ 64`: the significand and the digits
that were left out, from the first that did not fit. -/
def takeDigits (significand : Nat) : List Char → Nat × List Char
  | [] => (significand, [])
  | c :: rest =>
    let next := 10 * significand + naturalOf [c]
    if next < 2 ^ 64 then takeDigits next rest else (significand, c :: rest)

/-- The exponent behind its letter: an optional sign and digits. -/
def readExponent (cs : List Char) : Except SyntaxError (Parsed Int) :=
  let (negative, cs) := spanSign cs
  match cs with
  | [] => .error .endInValue
  | c :: _ =>
    if c.isDigit then
      let n := naturalOf (cs.takeWhile Char.isDigit)
      .ok (if negative then -(n : Int) else n, cs.dropWhile Char.isDigit)
    else .error .invalidNumber

/-- The fraction behind its point, which needs a digit. -/
def readFraction (cs : List Char) : Except SyntaxError (Parsed (List Char)) :=
  match cs with
  | [] => .error .endInValue
  | c :: _ =>
    if c.isDigit then .ok (cs.takeWhile Char.isDigit, cs.dropWhile Char.isDigit) else .error .invalidNumber

/-- A double with a sign. -/
def signed (negative : Bool) (x : Float) : Number := .double (if negative then -x else x)

/-- The integer, or the double that stands for it beyond the 64-bit ranges.  Negative zero is a
double. -/
def integerNumber (negative : Bool) (magnitude : Nat) : Number :=
  if negative && magnitude = 0 then .double (-0.0)
  else
    match Number.ofInt? (if negative then -(magnitude : Int) else magnitude) with
    | some n => n
    | none => signed negative (Float.ofNat magnitude)

/-- A number behind its sign. -/
def readMagnitude (negative : Bool) (cs : List Char) : Except SyntaxError (Parsed Number) := do
  let whole := cs.takeWhile Char.isDigit
  let rest := cs.dropWhile Char.isDigit
  match cs with
  | [] => throw .endInValue
  | '0' :: c :: _ => if c.isDigit then throw .invalidNumber
  | c :: _ => if !c.isDigit then throw .invalidNumber
  let (significand, dropped) := takeDigits 0 whole
  let finish (significand : Nat) (exponent : Int) (rest : List Char) : Except SyntaxError (Parsed Number) := do
    let (shift, rest) ← match rest with
      | 'e' :: rest => readExponent rest
      | 'E' :: rest => readExponent rest
      | _ => .ok (0, rest)
    match scaleByTen significand (exponent + shift) with
    | some x => return (signed negative x, rest)
    | none => throw .numberOutOfRange
  match rest with
  | '.' :: rest =>
    let (fraction, rest) ← readFraction rest
    let (significand, excess) := takeDigits significand fraction
    finish significand (dropped.length - (fraction.length - excess.length : Nat)) rest
  | 'e' :: _ => finish significand dropped.length rest
  | 'E' :: _ => finish significand dropped.length rest
  | _ =>
    if dropped.isEmpty then return (integerNumber negative significand, rest)
    finish significand dropped.length rest

example : readMagnitude false "15e-1]".toList = .ok (.double 1.5, [']']) := by decide +kernel
example : readMagnitude true "0".toList = .ok (.double (-0.0), []) := by decide +kernel
example : readMagnitude false "1e400".toList = .error .numberOutOfRange := by decide +kernel

end Rollout.Json
