/-!
# Digits

Numbers written with the digits of a base, and the digits at the head of a text.
-/

namespace Rollout

/-- The value of a digit of a base up to sixteen, in either case. -/
def digitValue? (base : Nat) (c : Char) : Option Nat :=
  let value? :=
    if '0' ≤ c ∧ c ≤ '9' then some (c.toNat - '0'.toNat)
    else if 'a' ≤ c ∧ c ≤ 'f' then some (c.toNat - 'a'.toNat + 10)
    else if 'A' ≤ c ∧ c ≤ 'F' then some (c.toNat - 'A'.toNat + 10)
    else none
  value?.filter (· < base)

/-- Whether a character is a digit of a base. -/
def isDigitOf (base : Nat) (c : Char) : Bool := (digitValue? base c).isSome

/-- The number that digits of a base write. -/
def naturalIn (base : Nat) (digits : List Char) : Nat :=
  digits.foldl (fun n c => base * n + (digitValue? base c).getD 0) 0

/-- The number that decimal digits write. -/
def naturalOf (digits : List Char) : Nat := naturalIn 10 digits

/-- The decimal digits at the head of a text and what follows them. -/
def spanDigits (cs : List Char) : List Char × List Char :=
  (cs.takeWhile Char.isDigit, cs.dropWhile Char.isDigit)

/-- An optional sign, as whether it is a minus, and what follows it. -/
def spanSign : List Char → Bool × List Char
  | '-' :: rest => (true, rest)
  | '+' :: rest => (false, rest)
  | cs => (false, cs)

/-- A whole number with an optional sign. -/
def signedNatural? (cs : List Char) : Option Int :=
  let (negative, digits) := spanSign cs
  if digits.isEmpty || !digits.all Char.isDigit then none
  else some (if negative then -(naturalOf digits : Int) else naturalOf digits)

end Rollout
