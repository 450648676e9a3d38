import Rollout.Decimal.Shortest
import Rollout.Json.Basic

/-!
# JSON text

Two layouts write a document: `compact` without any blank and `pretty` with one item or member per
line, two blanks of indentation a level and empty containers closed at once.  Both keep the order
of members and their repetitions.  Strings escape the quotation mark, the backslash and the
characters below U+0020, all others stand for themselves.
-/

namespace Rollout

/-! ## Numbers -/

/-- Doubles are written with their shortest digits.  Leading exponents from -5 to 15 are written
positionally, with `.0` behind an integer; all others as one digit, a point with the further digits
if there are any, and a signed exponent. -/
def Decimal.layout (d : Decimal) : List Char :=
  let digits := d.digits
  let leading : Int := d.exponent + digits.length - 1
  if d.significand = 0 then ['0', '.', '0']
  else if leading < -5 ∨ 15 < leading then
    let fraction := match digits.drop 1 with
      | [] => []
      | more => '.' :: more
    digits.take 1 ++ fraction ++ 'e' :: (if leading < 0 then '-' else '+') ::
      Nat.toDigits 10 leading.natAbs
  else if leading < 0 then
    '0' :: '.' :: (List.replicate (-leading - 1).toNat '0' ++ digits)
  else if d.exponent < 0 then
    let whole := (leading + 1).toNat
    digits.take whole ++ '.' :: digits.drop whole
  else
    digits ++ List.replicate d.exponent.toNat '0' ++ ['.', '0']

namespace Number

/-- The text of a number.  A double that is not finite has no JSON text and is written as null. -/
def chars : Number → List Char
  | .integer n _ => if n < 0 then '-' :: Nat.toDigits 10 n.natAbs else Nat.toDigits 10 n.natAbs
  | .double x =>
    if x.isFinite then
      let magnitude := (Decimal.ofFloat x).layout
      if x.toBits.toNat < 2 ^ 63 then magnitude else '-' :: magnitude
    else ['n', 'u', 'l', 'l']

end Number

namespace Json

/-! ## Strings -/

/-- The digit of a number below sixteen. -/
def hexDigit (n : Nat) : Char := (Nat.digitChar n)

/-- One character inside a string literal. -/
def escape (c : Char) : List Char :=
  if c = '"' then ['\\', '"']
  else if c = '\\' then ['\\', '\\']
  else if c = '\x08' then ['\\', 'b']
  else if c = '\t' then ['\\', 't']
  else if c = '\n' then ['\\', 'n']
  else if c = '\x0c' then ['\\', 'f']
  else if c = '\r' then ['\\', 'r']
  else if c.toNat < 0x20 then
    ['\\', 'u', '0', '0', hexDigit (c.toNat / 16), hexDigit (c.toNat % 16)]
  else [c]

/-- The characters of a string literal. -/
def escapeAll : List Char → List Char
  | [] => []
  | c :: rest => escape c ++ escapeAll rest

/-- A string literal. -/
def quote (s : String) : List Char := '"' :: (escapeAll s.toList ++ ['"'])

/-! ## The compact layout -/

mutual

/-- The document without blanks. -/
def compactChars : Json → List Char
  | .null => ['n', 'u', 'l', 'l']
  | .bool true => ['t', 'r', 'u', 'e']
  | .bool false => ['f', 'a', 'l', 's', 'e']
  | .number n => n.chars
  | .string s => quote s
  | .array [] => ['[', ']']
  | .array (first :: rest) => '[' :: (first.compactChars ++ compactItems rest)
  | .object [] => ['{', '}']
  | .object ((key, first) :: rest) =>
    '{' :: (quote key ++ ':' :: (first.compactChars ++ compactMembers rest))

/-- The further items, up to the closing bracket. -/
def compactItems : List Json → List Char
  | [] => [']']
  | j :: rest => ',' :: (j.compactChars ++ compactItems rest)

/-- The further members, up to the closing brace. -/
def compactMembers : List (String × Json) → List Char
  | [] => ['}']
  | (key, j) :: rest => ',' :: (quote key ++ ':' :: (j.compactChars ++ compactMembers rest))

end

/-- The compact text of a document. -/
def compact (j : Json) : String := String.ofList j.compactChars

/-! ## The pretty layout -/

/-- A line break and the indentation of a level. -/
def newLine (level : Nat) : List Char := '\n' :: List.replicate (2 * level) ' '

mutual

/-- The document laid out at a level of indentation. -/
def prettyChars (level : Nat) : Json → List Char
  | .null => ['n', 'u', 'l', 'l']
  | .bool true => ['t', 'r', 'u', 'e']
  | .bool false => ['f', 'a', 'l', 's', 'e']
  | .number n => n.chars
  | .string s => quote s
  | .array [] => ['[', ']']
  | .array (first :: rest) =>
    '[' :: (newLine (level + 1) ++ (first.prettyChars (level + 1) ++ prettyItems level rest))
  | .object [] => ['{', '}']
  | .object ((key, first) :: rest) =>
    '{' :: (newLine (level + 1) ++ (quote key ++ ':' :: ' ' ::
      (first.prettyChars (level + 1) ++ prettyMembers level rest)))

/-- The further items, up to the closing bracket. -/
def prettyItems (level : Nat) : List Json → List Char
  | [] => newLine level ++ [']']
  | j :: rest =>
    ',' :: (newLine (level + 1) ++ (j.prettyChars (level + 1) ++ prettyItems level rest))

/-- The further members, up to the closing brace. -/
def prettyMembers (level : Nat) : List (String × Json) → List Char
  | [] => newLine level ++ ['}']
  | (key, j) :: rest =>
    ',' :: (newLine (level + 1) ++ (quote key ++ ':' :: ' ' ::
      (j.prettyChars (level + 1) ++ prettyMembers level rest)))

end

/-- The pretty text of a document. -/
def pretty (j : Json) : String := String.ofList (j.prettyChars 0)

example : (Json.object [("b", .array [.null]), ("a", .string "\n")]).compact
    = "\x7b\"b\":[null],\"a\":\"\\n\"\x7d" := by decide +kernel

end Json

end Rollout
