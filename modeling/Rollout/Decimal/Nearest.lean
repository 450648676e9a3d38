import Rollout.Decimal.Rounding
import Rollout.Text.Digits

/-!
# The nearest double of a decimal

Reading a decimal rounds once: the value is a quotient of natural numbers, the binary exponent is
chosen so that the quotient has fifty-three bits (fewer at the lower end of the range), and the
mantissa is the quotient rounded to nearest, ties to even.  Exponent and mantissa together are the
bits of the double, and a mantissa that rounds up to the next power of two carries into the exponent
by itself.
-/

namespace Rollout

/-- The bits of positive infinity, above those of every finite positive double. -/
def infinityBits : Nat := 0x7ff0000000000000

/-- The double nearest to a quotient; infinity when it is too large. -/
def nearestFloat (num den : Nat) : Float :=
  if num = 0 then 0.0
  else
    let guess : Int := (num.log2 : Int) - den.log2
    let atLeast := den * 2 ^ guess.toNat ≤ num * 2 ^ (-guess).toNat
    let exponent := max ((if atLeast then guess else guess - 1) - 52) (-1074)
    let mantissa := roundDiv (num * 2 ^ (-exponent).toNat) (den * 2 ^ exponent.toNat)
    Float.ofBits (min ((exponent + 1074).toNat * 2 ^ 52 + mantissa) infinityBits).toUInt64

namespace Decimal

/-- The double nearest to a decimal.  Decimals far outside the range are told by their leading
exponent, so that no huge power is computed for them. -/
def toFloat (d : Decimal) : Float :=
  if d.significand = 0 then 0.0
  else
    let leading := d.exponent + d.digits.length
    if 400 < leading then Float.ofBits infinityBits.toUInt64
    else if leading < -400 then 0.0
    else nearestFloat (d.significand * 10 ^ d.exponent.toNat) (10 ^ (-d.exponent).toNat)

example : toFloat ⟨1, -1⟩ = 0.1 := by decide +kernel
example : toFloat ⟨18446744073709553665, 0⟩ = 18446744073709555712.0 := by decide +kernel
example : toFloat ⟨5, -324⟩ = 5e-324 := by decide +kernel

end Decimal

/-! ## Texts of doubles -/

/-- A decimal without sign: digits with an optional point, at least one digit, and an optional
exponent. -/
def decimal? (cs : List Char) : Option Decimal :=
  let (whole, rest) := spanDigits cs
  let (fraction, rest) := match rest with
    | '.' :: rest => spanDigits rest
    | _ => ([], rest)
  if whole.isEmpty && fraction.isEmpty then none
  else
    let scaled (exponent : Int) : Decimal :=
      ⟨naturalOf (whole ++ fraction), exponent - fraction.length⟩
    match rest with
    | [] => some (scaled 0)
    | 'e' :: rest => (signedNatural? rest).map scaled
    | 'E' :: rest => (signedNatural? rest).map scaled
    | _ => none

/-- A double: an optional sign and a decimal, or one of the words for infinity and for what is not a
number, in any case. -/
def float? (cs : List Char) : Option Float :=
  let (negative, magnitude) := spanSign cs
  let word := magnitude.map Char.toLower
  let value :=
    if word = "inf".toList || word = "infinity".toList then
      some (Float.ofBits infinityBits.toUInt64)
    else if word = "nan".toList then some (0.0 / 0.0)
    else (decimal? magnitude).map Decimal.toFloat
  value.map fun x => if negative then -x else x

end Rollout
