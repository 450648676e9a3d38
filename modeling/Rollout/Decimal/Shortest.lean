import Rollout.Power

/-!
# Shortest decimals of doubles

A finite double is `m * 2 ^ q` for naturals and integers read off its bits.  The reals that round to
it form an interval around it, closed when `m` is even and open when `m` is odd.  `shortest` looks
for a decimal of that interval on the grids of one, two, up to seventeen digits: the first grid with
a point in the interval wins, and of two points of that grid the nearer one, a tie going to the even
digit.  If a point of a grid lies in the interval then so does one of the value's two neighbours on
that grid, so only these two are tested.  All arithmetic is exact.
-/

namespace Rollout

/-- The number `significand * 10 ^ exponent`. -/
structure Decimal where
  significand : Nat
  exponent : Int
deriving Repr, DecidableEq

namespace Decimal

/-- Move trailing zeros of the significand into the exponent; `fuel` bounds their number. -/
def strip : Nat → Decimal → Decimal
  | 0, d => d
  | fuel + 1, d =>
    if d.significand % 10 = 0 ∧ d.significand ≠ 0 then
      strip fuel ⟨d.significand / 10, d.exponent + 1⟩
    else d

/-- The decimal digits of the significand. -/
def digits (d : Decimal) : List Char := Nat.toDigits 10 d.significand

end Decimal

/-! ## Binary fractions -/

/-- A positive binary fraction `mantissa * 2 ^ exponent`, with the width of the interval that
rounds to it: at the least mantissa of a binade the lower neighbour is twice as near. -/
structure BinaryFraction where
  mantissa : Nat
  exponent : Int
  lowerIsNear : Bool
deriving Repr, DecidableEq

namespace BinaryFraction

/-- The magnitude of a finite double other than zero. -/
def ofFloat (x : Float) : BinaryFraction :=
  let bits := x.toBits.toNat
  let fraction : Nat := bits % 2 ^ 52
  let biased : Nat := bits / 2 ^ 52 % 2 ^ 11
  if biased = 0 then ⟨fraction, -1074, false⟩
  else ⟨fraction + 2 ^ 52, biased - 1075, fraction = 0 && biased > 1⟩

/-- The decimal exponent of the leading digit: the value lies in `[10 ^ e, 10 ^ (e + 1))`.  The
value is scaled by `10 ^ 400` first, which brings every double above one and keeps the digit
count. -/
def leadingExponent (b : BinaryFraction) : Int :=
  let scaled := b.mantissa * 10 ^ 400 * 2 ^ b.exponent.toNat / 2 ^ (-b.exponent).toNat
  (Nat.toDigits 10 scaled).length - 401

/-- The nearest point of the grid `10 ^ gridExponent` that rounds to the value, if there is one. -/
def onGrid (b : BinaryFraction) (gridExponent : Int) : Option Decimal :=
  let q := b.exponent - 2
  let pointScale := 10 ^ gridExponent.toNat * 2 ^ (-q).toNat
  let valueScale := 2 ^ q.toNat * 10 ^ (-gridExponent).toNat
  let value := 4 * b.mantissa * valueScale
  let low := (4 * b.mantissa - if b.lowerIsNear then 1 else 2) * valueScale
  let high := (4 * b.mantissa + 2) * valueScale
  let closed := b.mantissa % 2 = 0
  let below := value / pointScale
  let rounds (point : Nat) : Bool :=
    let p := point * pointScale
    if closed then low ≤ p && p ≤ high else low < p && p < high
  let gapBelow := value - below * pointScale
  let gapAbove := (below + 1) * pointScale - value
  let take (point : Nat) : Option Decimal := some ⟨point, gridExponent⟩
  match rounds below, rounds (below + 1) with
  | false, false => none
  | true, false => take below
  | false, true => take (below + 1)
  | true, true =>
    if gapBelow < gapAbove then take below
    else if gapAbove < gapBelow then take (below + 1)
    else if below % 2 = 0 then take below
    else take (below + 1)

/-- The decimal of fewest digits that rounds to the value, and the nearest of these. -/
def shortest (b : BinaryFraction) : Decimal :=
  let leading := b.leadingExponent
  match (List.range 17).findSome? fun (n : Nat) => b.onGrid (leading - n) with
  | some d => d.strip 18
  | none => ⟨0, 0⟩

end BinaryFraction

/-- The shortest decimal that rounds to the magnitude of a finite double. -/
def Decimal.ofFloat (x : Float) : Decimal :=
  if x == 0 then ⟨0, 0⟩ else (BinaryFraction.ofFloat x).shortest

example : Decimal.ofFloat 0.1 = ⟨1, -1⟩ := by decide +kernel
example : Decimal.ofFloat 5e-324 = ⟨5, -324⟩ := by decide +kernel
example : Decimal.ofFloat 1.7976931348623157e308 = ⟨17976931348623157, 292⟩ := by decide +kernel

end Rollout
