import Rollout.Decimal.Shortest

/-!
# Rounding to whole units

A quotient is rounded to the nearest natural number, a tie to the even one; a non-negative double is
scaled by a natural factor and rounded the same way, without an intermediate rounding.
-/

namespace Rollout

/-- The natural number nearest to a quotient, the even one of two. -/
def roundDiv (num den : Nat) : Nat :=
  let quotient := num / den
  let twice := 2 * (num % den)
  if twice < den then quotient
  else if den < twice then quotient + 1
  else if quotient % 2 = 0 then quotient
  else quotient + 1

/-- The magnitude of a finite double times a factor, as a whole number. -/
def roundScaled (x : Float) (factor : Nat) : Nat :=
  let b := BinaryFraction.ofFloat x
  roundDiv (b.mantissa * factor * 2 ^ b.exponent.toNat) (2 ^ (-b.exponent).toNat)

example : roundScaled 0.0000000025 1000000000 = 3 := by decide +kernel
example : roundScaled 2.5 1 = 2 := by decide +kernel

end Rollout
