import Rollout.Decimal.Nearest
import Rollout.Toml.Table

/-!
# Scalars of a TOML text

Readers of strings, numbers, dates and words.  A reader takes the characters ahead and returns what
it read together with the characters behind it.
-/

namespace Rollout.Toml

/-- What a reader has read, and the characters behind it. -/
abbrev Parsed (α : Type) := α × List Char

/-! ## Characters -/

/-- Blanks inside a line. -/
def isBlank (c : Char) : Bool := c = ' ' || c = '\t'

/-- The characters that comments and strings may hold as they are. -/
def isPrintable (c : Char) : Bool := c = '\t' || (0x20 ≤ c.toNat && c.toNat ≠ 0x7f)

/-- The characters from the first that is not blank. -/
def skipBlanks (cs : List Char) : List Char := cs.dropWhile isBlank

/-- A line break: a line feed, possibly behind a carriage return. -/
def lineBreak : List Char → Option (List Char)
  | '\n' :: rest => some rest
  | '\r' :: '\n' :: rest => some rest
  | _ => none

/-- Read the given characters. -/
def expect : List Char → List Char → Option (List Char)
  | [], cs => some cs
  | _ :: _, [] => none
  | e :: more, c :: rest => if c = e then expect more rest else none

/-! ## Strings -/

/-- An escape behind its backslash. -/
def readEscape : List Char → Option (Parsed Char)
  | 'b' :: rest => some ('\x08', rest)
  | 't' :: rest => some ('\t', rest)
  | 'n' :: rest => some ('\n', rest)
  | 'f' :: rest => some ('\x0c', rest)
  | 'r' :: rest => some ('\r', rest)
  | '"' :: rest => some ('"', rest)
  | '\\' :: rest => some ('\\', rest)
  | 'u' :: rest => code 4 rest
  | 'U' :: rest => code 8 rest
  | _ => none
where
  /-- A character by its code of so many hexadecimal digits. -/
  code (width : Nat) (cs : List Char) : Option (Parsed Char) :=
    let digits := cs.take width
    if digits.length = width && digits.all (isDigitOf 16) then
      let n := naturalIn 16 digits
      if h : n.isValidChar then some (Char.ofNatAux n h, cs.drop width) else none
    else none

/-- A string on one line, behind its opening quotation mark; only between double marks a backslash
begins an escape.  A list as long as the text is fuel enough. -/
def lineString (mark : Char) : (fuel : List Char) → List Char → Option (Parsed (List Char))
  | [], _ => none
  | _ :: _, [] => none
  | _ :: fuel, c :: rest =>
    if c = mark then some ([], rest)
    else if c = '\\' && mark = '"' then do
      let (c, rest) ← readEscape rest
      let (more, rest) ← lineString mark fuel rest
      return (c :: more, rest)
    else if isPrintable c then do
      let (more, rest) ← lineString mark fuel rest
      return (c :: more, rest)
    else none

/-- Blanks and line breaks from here on. -/
def skipSpace : List Char → List Char
  | '\r' :: '\n' :: rest => skipSpace rest
  | c :: rest => if isBlank c || c = '\n' then skipSpace rest else c :: rest
  | [] => []

/-- A string of several lines, behind its opening marks.  A backslash before the end of a line joins
it with the next word.  Up to two marks may stand before the three that end the string. -/
def blockString (mark : Char) : (fuel : List Char) → List Char → Option (Parsed (List Char))
  | [], _ => none
  | _ :: _, [] => none
  | _ :: fuel, c :: rest =>
    if c = mark then
      let marks := 1 + (rest.takeWhile (· = mark)).length
      let behind := rest.dropWhile (· = mark)
      if marks < 3 then do
        let (more, rest) ← blockString mark fuel behind
        return (List.replicate marks mark ++ more, rest)
      else if marks ≤ 5 then some (List.replicate (marks - 3) mark, behind)
      else none
    else if c = '\\' && mark = '"' then
      match lineBreak (skipBlanks rest) with
      | some next => blockString mark fuel (skipSpace next)
      | none => do
        let (c, rest) ← readEscape rest
        let (more, rest) ← blockString mark fuel rest
        return (c :: more, rest)
    else
      match lineBreak (c :: rest) with
      | some next => do
        let (more, rest) ← blockString mark fuel next
        return ('\n' :: more, rest)
      | none =>
        if isPrintable c then do
          let (more, rest) ← blockString mark fuel rest
          return (c :: more, rest)
        else none

/-- A string value at its first mark.  A line break right behind three marks is dropped. -/
def readString (cs : List Char) : Option (Parsed String) := do
  match cs with
  | a :: b :: c :: rest =>
    if a = b && b = c then
      let rest := (lineBreak rest).getD rest
      let (text, rest) ← blockString a rest rest
      return (String.ofList text, rest)
    let (text, rest) ← lineString a cs (b :: c :: rest)
    return (String.ofList text, rest)
  | a :: rest =>
    let (text, rest) ← lineString a cs rest
    return (String.ofList text, rest)
  | [] => none

/-! ## Numbers -/

/-- Digits of a base, between which single underscores may stand: the digits without them. -/
def readDigits (base : Nat) : List Char → Option (Parsed (List Char))
  | c :: '_' :: rest =>
    if isDigitOf base c then do
      let (more, rest) ← readDigits base rest
      return (c :: more, rest)
    else none
  | c :: rest =>
    if isDigitOf base c then
      match readDigits base rest with
      | some (more, rest) => some (c :: more, rest)
      | none => some ([c], rest)
    else none
  | [] => none

/-- A decimal whole number without leading zero. -/
def readWhole (cs : List Char) : Option (Parsed (List Char)) :=
  match cs with
  | '0' :: rest => some (['0'], rest)
  | _ => readDigits 10 cs

/-- An optional sign. -/
def readSign : List Char → Parsed (List Char)
  | '+' :: rest => (['+'], rest)
  | '-' :: rest => (['-'], rest)
  | cs => ([], cs)

/-- The letter of an exponent and what follows: sign and digits. -/
def readExponent : List Char → Option (Parsed (List Char))
  | c :: rest => do
    if c != 'e' && c != 'E' then none
    let (sign, rest) := readSign rest
    let (digits, rest) ← readDigits 10 rest
    return ('e' :: sign ++ digits, rest)
  | [] => none

/-- The point of a fraction and its digits. -/
def readFraction : List Char → Option (Parsed (List Char))
  | '.' :: rest => do
    let (digits, rest) ← readDigits 10 rest
    return ('.' :: digits, rest)
  | _ => none

/-- A double: a whole number with a fraction, an exponent or both.  Beyond the greatest double it
must be negative. -/
def readFloat (cs : List Char) : Option (Parsed Value) := do
  let (sign, rest) := readSign cs
  let (whole, rest) ← readWhole rest
  let (fraction, rest) := (readFraction rest).getD ([], rest)
  let (exponent, rest) := (readExponent rest).getD ([], rest)
  if fraction.isEmpty && exponent.isEmpty then none
  let x ← float? (sign ++ whole ++ fraction ++ exponent)
  if x.isInf && 0.0 < x then none
  return (.float x, rest)

/-- The words for infinity and for what is not a number, with an optional sign. -/
def readSpecialFloat (cs : List Char) : Option (Parsed Value) :=
  let (sign, rest) := readSign cs
  let word := rest.take 3
  if word = "inf".toList || word = "nan".toList then
    (float? (sign ++ word)).map fun x => (.float x, rest.drop 3)
  else none

/-- An integer of the signed 64-bit range: decimal with an optional sign, or with a marked base. -/
def readInteger (cs : List Char) : Option (Parsed Value) := do
  let (value, rest) ← match cs with
    | '0' :: 'x' :: rest => inBase 16 rest
    | '0' :: 'o' :: rest => inBase 8 rest
    | '0' :: 'b' :: rest => inBase 2 rest
    | _ => do
      let (sign, rest) := readSign cs
      let (digits, rest) ← readWhole rest
      let n : Int := naturalOf digits
      some (if sign = ['-'] then -n else n, rest)
  if -2 ^ 63 ≤ value ∧ value < 2 ^ 63 then return (.integer value, rest)
  none
where
  /-- A natural number behind the mark of its base. -/
  inBase (base : Nat) (cs : List Char) : Option (Parsed Int) := do
    let (digits, rest) ← readDigits base cs
    return (naturalIn base digits, rest)

/-! ## Dates and times -/

/-- A number of so many digits within bounds. -/
def fixedNumber (width low high : Nat) (cs : List Char) : Option (Parsed Nat) :=
  let digits := cs.take width
  let n := naturalOf digits
  if digits.length = width && digits.all Char.isDigit && low ≤ n && n ≤ high then
    some (n, cs.drop width)
  else none

/-- The number of days in a month. -/
def daysIn (year month : Nat) : Nat :=
  if month = 2 then
    if year % 4 = 0 && (year % 100 ≠ 0 || year % 400 = 0) then 29 else 28
  else if [4, 6, 9, 11].contains month then 30
  else 31

/-- A date: four digits of the year, two of the month and two of the day. -/
def skipDate (cs : List Char) : Option (List Char) := do
  let (year, rest) ← fixedNumber 4 0 9999 cs
  let (month, rest) ← fixedNumber 2 1 12 (← expect ['-'] rest)
  let (_, rest) ← fixedNumber 2 1 (daysIn year month) (← expect ['-'] rest)
  return rest

/-- A time: hour, minute, second and possibly a fraction of it. -/
def skipTime (cs : List Char) : Option (List Char) := do
  let (_, rest) ← fixedNumber 2 0 23 cs
  let (_, rest) ← fixedNumber 2 0 59 (← expect [':'] rest)
  let (_, rest) ← fixedNumber 2 0 60 (← expect [':'] rest)
  match rest with
  | '.' :: c :: more => return if c.isDigit then more.dropWhile Char.isDigit else rest
  | _ => return rest

/-- The offset of a time from the universal one. -/
def skipOffset : List Char → Option (List Char)
  | 'Z' :: rest => some rest
  | 'z' :: rest => some rest
  | c :: rest => do
    if c != '+' && c != '-' then none
    let (_, rest) ← fixedNumber 2 0 23 rest
    let (_, rest) ← fixedNumber 2 0 59 (← expect [':'] rest)
    return rest
  | [] => none

/-- A date, a time or both. -/
def readMoment (cs : List Char) : Option (Parsed Value) :=
  match skipDate cs with
  | none => (skipTime cs).map fun rest => (.moment, rest)
  | some rest =>
    let time? := match rest with
      | c :: more => if c = 'T' || c = 't' || c = ' ' then skipTime more else none
      | [] => none
    match time? with
    | none => some (.moment, rest)
    | some rest => some (.moment, (skipOffset rest).getD rest)

/-- A value that is neither array nor table. -/
def readScalar (cs : List Char) : Option (Parsed Value) :=
  match cs with
  | [] => none
  | c :: _ =>
    if c = '"' || c = '\x27' then (readString cs).map fun (text, rest) => (.string text, rest)
    else if c = 't' then (expect "true".toList cs).map fun rest => (.boolean true, rest)
    else if c = 'f' then (expect "false".toList cs).map fun rest => (.boolean false, rest)
    else
      readMoment cs <|> readFloat cs <|> readInteger cs <|> readSpecialFloat cs

end Rollout.Toml
