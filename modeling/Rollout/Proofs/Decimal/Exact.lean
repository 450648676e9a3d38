import Rollout.Json.Scalar
import Rollout.Proofs.Decimal.Rounding

/-!
# Decimals that are rounded once

The reader of JSON rounds the significand and the power of ten to doubles and then multiplies or
divides.  A significand below `2 ^ 53` is a double, and so are the powers of ten up to
`10 ^ 22 = 5 ^ 22 * 2 ^ 22`.  Between two such doubles one operation rounds once, so that the result is
the double nearest to the decimal (`scaleByTen_eq`).
-/

namespace Rollout.Double

open Float.Model (Format totalExponent)
open Float.Model.UnpackedFloat
open Json (powerOfTen shrinkByTen scaleByTen)

/-! ## Whole numbers -/

/-- A double is the given natural number, which is not zero. -/
def IsExactly (x : Float) (n : Nat) : Prop :=
  ∃ mantissa exponent, ∃ h : 0 < mantissa,
    x.toModel.unpack = .finite .positive mantissa exponent h ∧
      2 ^ 52 ≤ mantissa ∧ mantissa < 2 ^ 53 ∧ (mantissa * 2 ^ exponent : ℚ) = n

theorem IsExactly.pos {x : Float} {n : Nat} (h : IsExactly x n) : 0 < n := by
  obtain ⟨mantissa, exponent, hpos, -, -, -, hn⟩ := h
  have : (0 : ℚ) < n := by rw [← hn]; positivity
  exact_mod_cast this

/-- The mantissa of a natural number ends fifty-two places below its first bit. -/
theorem exponent_add_eq_log2 {n mantissa : Nat} {exponent : Int} (hlow : 2 ^ 52 ≤ mantissa)
    (hhigh : mantissa < 2 ^ 53) (hn : (mantissa * 2 ^ exponent : ℚ) = n) :
    exponent + 52 = n.log2 := by
  rw [Nat.log2_eq_log_two, ← Int.log_natCast (R := ℚ), eq_comm]
  refine log_eq_of_bounds ?_ ?_
  · rw [← hn, add_comm, zpow_add₀ two_ne_zero]
    gcongr
    exact_mod_cast hlow
  · rw [← hn, add_assoc, add_comm, zpow_add₀ two_ne_zero]
    gcongr
    exact_mod_cast hhigh

/-- A number of few bits is a double. -/
theorem isExactly_nearestFloat {n k : Nat} (hpos : 0 < n) (hn : n < 2 ^ 53)
    (hrange : (n * 2 ^ k).log2 ≤ 900) : IsExactly (nearestFloat (n * 2 ^ k) 1) (n * 2 ^ k) := by
  have hwhole : 0 < n * 2 ^ k := by positivity
  obtain ⟨e, he⟩ : ∃ e : Int, e = (n * 2 ^ k).log2 - 52 := ⟨_, rfl⟩
  have hplace : lastPlace ((n * 2 ^ k : Nat) / (1 : Nat)) = e := by
    unfold lastPlace
    rw [Nat.cast_one, div_one, Int.log_natCast, ← Nat.log2_eq_log_two]
    omega
  have hek : e ≤ k := by
    have : (n * 2 ^ k).log2 < 53 + k := (Nat.log2_lt hwhole.ne').mpr (by
      rw [pow_add]
      exact Nat.mul_lt_mul_of_pos_right hn (Nat.two_pow_pos k))
    omega
  -- in units of the last place the number is whole
  obtain ⟨mantissa, hmantissa⟩ : ∃ mantissa, mantissa = n * 2 ^ (k - e).toNat := ⟨_, rfl⟩
  have hunits : (mantissa : ℚ) / (1 : Nat) = (n * 2 ^ k : Nat) / (1 : Nat) / 2 ^ e := by
    rw [hmantissa]
    push_cast
    rw [← zpow_natCast, Int.toNat_of_nonneg (by omega), zpow_sub₀ two_ne_zero, zpow_natCast]
    field_simp
  have hfloor := div_bounds hwhole Nat.one_pos hplace Nat.one_pos hunits
  rw [Nat.div_one] at hfloor
  have hnormal : 2 ^ 52 ≤ mantissa := hfloor.2.resolve_right (by omega)
  have hcanonical : Canonical mantissa e := ⟨by omega, hfloor.1, by omega, by omega, .inl hnormal⟩
  refine ⟨mantissa, e, hcanonical.pos, ?_, hnormal, hfloor.1, ?_⟩
  · rw [nearestFloat_eq_carried hwhole Nat.one_pos hplace Nat.one_pos hunits, roundDiv_one, carried,
      if_neg hfloor.1.ne, unpacked_of_pos .positive hcanonical.pos]
    exact hcanonical.unpack_pack .positive
  · rw [Nat.cast_one, div_one, div_one] at hunits
    rw [hunits]
    field_simp

/-! ## Products and quotients -/

theorem IsExactly.mul {x y : Float} {a b : Nat} (hx : IsExactly x a) (hy : IsExactly y b) :
    x * y = nearestFloat (a * b) 1 := by
  have hab := Nat.mul_pos hx.pos hy.pos
  obtain ⟨m₁, e₁, hm₁, hunpack₁, hlow₁, hhigh₁, ha⟩ := hx
  obtain ⟨m₂, e₂, hm₂, hunpack₂, hlow₂, hhigh₂, hb⟩ := hy
  have hvalue : ((a * b : Nat) : ℚ) / (1 : Nat) =
      (m₁ * m₂ : Nat) / (1 : Nat) * 2 ^ (e₁ + e₂) := by
    rw [zpow_add₀ two_ne_zero]
    push_cast
    rw [← ha, ← hb]
    ring
  have hproduct : 2 ^ 52 ≤ m₁ * m₂ := hlow₁.trans (Nat.le_mul_of_pos_right m₁ hm₂)
  have hplace : e₁ + e₂ ≤ lastPlace ((m₁ * m₂ : Nat) / (1 : Nat) * 2 ^ (e₁ + e₂)) := by
    have hlog := (Nat.le_log2 (by omega)).mpr hproduct
    rw [← targetExponent_div Nat.one_pos (by omega), Nat.div_one, targetExponent_eq, totalExponent]
    omega
  have hround :=
    pack_roundWithAccuracy Nat.one_pos (by omega : 1 ≤ m₁ * m₂) hab Nat.one_pos hvalue hplace
  rw [Nat.div_one, Nat.mod_one] at hround
  rw [← hround]
  show Float.ofModel (.pack (Float.Model.UnpackedFloat.mul .binary64 x.toModel.unpack
    y.toModel.unpack)) = _
  rw [hunpack₁, hunpack₂]
  rfl

theorem IsExactly.div {x y : Float} {a b : Nat} (hx : IsExactly x a) (hy : IsExactly y b)
    (hrange : b.log2 ≤ 900) : x / y = nearestFloat a b := by
  have hapos := hx.pos
  have hbpos := hy.pos
  obtain ⟨m₁, e₁, hm₁, hunpack₁, hlow₁, hhigh₁, ha⟩ := hx
  obtain ⟨m₂, e₂, hm₂, hunpack₂, hlow₂, hhigh₂, hb⟩ := hy
  have hloga := exponent_add_eq_log2 hlow₁ hhigh₁ ha
  have hlogb := exponent_add_eq_log2 hlow₂ hhigh₂ hb
  have hlog₁ := (log2_add_one_eq_iff hm₁ hhigh₁).mpr hlow₁
  have hlog₂ := (log2_add_one_eq_iff hm₂ hhigh₂).mpr hlow₂
  -- the numerator is shifted by as many places as a mantissa has
  have hcore : divCore .binary64 m₁ e₁ m₂ e₂ = (m₁ * 2 ^ 53 / m₂, e₁ - e₂ - 53,
      accuracyOfFraction (m₁ * 2 ^ 53 % m₂) m₂) := by
    have htarget : min (e₁ - e₂) (Format.targetExponent .binary64
        (totalExponent m₁ e₁ - totalExponent m₂ e₂)) = e₁ - e₂ - 53 := by
      rw [targetExponent_eq, totalExponent, totalExponent]
      omega
    unfold divCore
    dsimp only
    rw [htarget, show (e₁ - e₂ - (e₁ - e₂ - 53)).toNat = 53 by omega, Nat.shiftLeft_eq]
  have hvalue : (a : ℚ) / b = (m₁ * 2 ^ 53 : Nat) / m₂ * 2 ^ (e₁ - e₂ - 53) := by
    rw [← ha, ← hb, zpow_sub₀ two_ne_zero, zpow_sub₀ two_ne_zero]
    push_cast
    field_simp
  have hle : 2 ^ 52 * m₂ ≤ m₁ * 2 ^ 53 := Nat.mul_le_mul hlow₁ hhigh₂.le
  have hplace : e₁ - e₂ - 53 ≤ lastPlace ((m₁ * 2 ^ 53 : Nat) / m₂ * 2 ^ (e₁ - e₂ - 53)) := by
    have hfloor := (Nat.le_div_iff_mul_le hm₂).mpr hle
    have hlog := (Nat.le_log2 (by omega)).mpr hfloor
    rw [← targetExponent_div hm₂ (by omega), targetExponent_eq, totalExponent]
    omega
  rw [← pack_roundWithAccuracy hm₂ (by omega) hapos hbpos hvalue hplace]
  show Float.ofModel (.pack (Float.Model.UnpackedFloat.div .binary64 x.toModel.unpack
    y.toModel.unpack)) = _
  rw [hunpack₁, hunpack₂]
  simp only [Float.Model.UnpackedFloat.div, hcore]
  rfl

/-! ## Significands and powers of ten -/

theorem toFloat_toUInt64 {n : Nat} (hpos : 0 < n) (hn : n < 2 ^ 53) :
    n.toUInt64.toFloat = nearestFloat n 1 := by
  have hword : n.toUInt64.toNat = n := by
    rw [Nat.toUInt64_eq, UInt64.toNat_ofNat']
    exact Nat.mod_eq_of_lt (by omega)
  obtain ⟨e, he⟩ : ∃ e : Int, e = n.log2 - 52 := ⟨_, rfl⟩
  have hlog : n.log2 < 53 := (Nat.log2_lt hpos.ne').mpr hn
  have htarget : Format.targetExponent .binary64 (totalExponent n 0) = e := by
    rw [targetExponent_eq, totalExponent]
    omega
  have hplace : lastPlace ((n : ℚ) / (1 : Nat) * 2 ^ (0 : Int)) = e := by
    rw [← targetExponent_div Nat.one_pos hpos, Nat.div_one, htarget]
  have hvalue : (n : ℚ) / (1 : Nat) = (n * 2 ^ (-e).toNat : Nat) / (1 : Nat) * 2 ^ e := by
    push_cast
    rw [← zpow_natCast, Int.toNat_of_nonneg (by omega), div_one, div_one, mul_assoc,
      ← zpow_add₀ two_ne_zero, neg_add_cancel, zpow_zero, mul_one]
  have hround := pack_roundWithAccuracy Nat.one_pos (by positivity : 0 < n * 2 ^ (-e).toNat) hpos
    Nat.one_pos hvalue
    (by rw [← hvalue, ← mul_one ((n : ℚ) / _), ← zpow_zero (2 : ℚ), hplace])
  rw [Nat.div_one, Nat.mod_one] at hround
  rw [← hround]
  show Float.ofModel (.pack (Float.Model.UnpackedFloat.normalize .binary64 n.toUInt64.toNat 0
    .positive)) = _
  rw [hword]
  unfold Float.Model.UnpackedFloat.normalize
  rw [Int.compare_eq_gt.mpr (by omega)]
  show Float.ofModel (.pack (Float.Model.UnpackedFloat.round .binary64 .positive n 0)) = _
  unfold Float.Model.UnpackedFloat.round decreaseExponent
  dsimp only
  rw [htarget, zero_sub, Int.toNat_of_nonneg (by omega), zero_sub, neg_neg, Nat.shiftLeft_eq]
  rfl

theorem isExactly_nearestFloat_of_lt {n : Nat} (hpos : 0 < n) (hn : n < 2 ^ 53) :
    IsExactly (nearestFloat n 1) n := by
  have hlog : n.log2 < 53 := (Nat.log2_lt hpos.ne').mpr hn
  have h := isExactly_nearestFloat (k := 0) hpos hn
  rw [pow_zero, mul_one] at h
  exact h (by omega)

theorem isExactly_ofNat {n : Nat} (hpos : 0 < n) (hn : n < 2 ^ 53) :
    IsExactly (Float.ofNat n) n := by
  have hone : Float.ofBits 0x3FF0000000000000 = nearestFloat 1 1 := by decide +kernel
  have hmul : Float.ofNat n = n.toUInt64.toFloat * Float.ofBits 0x3FF0000000000000 := by
    show Float.ofScientific n false 0 = _
    unfold Float.ofScientific
    rw [dif_pos ⟨hn, by decide⟩]
    rfl
  have hexact := isExactly_nearestFloat_of_lt hpos hn
  rw [hmul, toFloat_toUInt64 hpos hn, hone,
    hexact.mul (isExactly_nearestFloat_of_lt Nat.one_pos (by decide)), mul_one]
  exact hexact

theorem toFloat_eq_nearestFloat {significand : Nat} {exponent : Int} (hpos : 0 < significand)
    (hsignificand : significand < 2 ^ 53) (hexponent : exponent.natAbs ≤ 22) :
    Decimal.toFloat ⟨significand, exponent⟩ =
      nearestFloat (significand * 10 ^ exponent.toNat) (10 ^ (-exponent).toNat) := by
  have hdigits : (Nat.toDigits 10 significand).length ≤ 16 :=
    (Nat.length_toDigits_le_iff (by decide) (by decide)).mpr (by omega)
  unfold Decimal.toFloat Decimal.digits
  dsimp only
  rw [if_neg hpos.ne', if_neg (by omega), if_neg (by omega)]

theorem log2_ten_pow_lt {k : Nat} (hk : k ≤ 22) : (10 ^ k).log2 < 74 :=
  (Nat.log2_lt (Nat.pow_pos (by decide)).ne').mpr
    (lt_of_le_of_lt (Nat.pow_le_pow_right (by decide) hk) (by decide))

theorem isExactly_powerOfTen {k : Nat} (hk : k ≤ 22) : IsExactly (powerOfTen k) (10 ^ k) := by
  have hpower : powerOfTen k = nearestFloat (5 ^ k * 2 ^ k) 1 := by
    unfold powerOfTen
    rw [toFloat_eq_nearestFloat Nat.one_pos (by decide) (by omega), Int.toNat_natCast,
      Int.toNat_neg_natCast, pow_zero, one_mul, ← Nat.mul_pow]
  have hfive : 5 ^ k < 2 ^ 53 :=
    lt_of_le_of_lt (Nat.pow_le_pow_right (by decide) hk) (by decide)
  have hlog := log2_ten_pow_lt hk
  rw [show 10 ^ k = 5 ^ k * 2 ^ k by rw [← Nat.mul_pow]] at hlog ⊢
  rw [hpower]
  exact isExactly_nearestFloat (by positivity) hfive (by omega)

/-! ## Decimals -/

theorem IsExactly.zero_mul {x : Float} {n : Nat} (h : IsExactly x n) :
    Float.ofNat 0 * x = 0.0 := by
  obtain ⟨mantissa, exponent, hpos, hunpack, -⟩ := h
  have hzero : (Float.ofNat 0).toModel.unpack = .zero .positive := by rfl
  show Float.ofModel (.pack (Float.Model.UnpackedFloat.mul .binary64
    (Float.ofNat 0).toModel.unpack x.toModel.unpack)) = _
  rw [hzero, hunpack]
  show Float.ofModel (.pack (.zero .positive)) = 0.0
  decide

theorem IsExactly.zero_div {x : Float} {n : Nat} (h : IsExactly x n) :
    Float.ofNat 0 / x = 0.0 := by
  obtain ⟨mantissa, exponent, hpos, hunpack, -⟩ := h
  have hzero : (Float.ofNat 0).toModel.unpack = .zero .positive := by rfl
  show Float.ofModel (.pack (Float.Model.UnpackedFloat.div .binary64
    (Float.ofNat 0).toModel.unpack x.toModel.unpack)) = _
  rw [hzero, hunpack]
  show Float.ofModel (.pack (.zero .positive)) = 0.0
  decide

section

variable {significand : Nat} {exponent : Int} (hsignificand : significand < 2 ^ 53)
  (hexponent : exponent.natAbs ≤ 22)
include hsignificand hexponent

theorem isMagnitude_toFloat : IsMagnitude (Decimal.toFloat ⟨significand, exponent⟩) := by
  rcases Nat.eq_zero_or_pos significand with rfl | hpos
  · refine ⟨0, 0, ?_, fun h => absurd h (lt_irrefl 0)⟩
    rw [unpacked_zero]
    unfold Decimal.toFloat
    rw [if_pos rfl]
    decide
  · rw [toFloat_eq_nearestFloat hpos hsignificand hexponent]
    refine isMagnitude_nearestFloat (by positivity) (by positivity) ?_
    calc significand * 10 ^ exponent.toNat < 2 ^ 53 * 10 ^ 22 := by
          refine Nat.mul_lt_mul_of_lt_of_le hsignificand ?_ (by decide)
          exact Nat.pow_le_pow_right (by decide) (by omega)
      _ ≤ 2 ^ 200 * 1 := by decide
      _ ≤ 2 ^ 200 * 10 ^ (-exponent).toNat := Nat.mul_le_mul_left _ (Nat.pow_pos (by decide))

/-- Few digits and a small power of ten give the double nearest to the decimal. -/
theorem scaleByTen_eq :
    scaleByTen significand exponent = some (Decimal.toFloat ⟨significand, exponent⟩) := by
  have hpower := isExactly_powerOfTen hexponent
  have hzero : Decimal.toFloat ⟨0, exponent⟩ = 0.0 := if_pos rfl
  unfold scaleByTen
  dsimp only
  by_cases hnegative : exponent < 0
  · rw [if_pos hnegative, shrinkByTen, if_pos (by omega)]
    rcases Nat.eq_zero_or_pos significand with rfl | hpos
    · rw [hzero, hpower.zero_div]
    · have hlog := log2_ten_pow_lt hexponent
      rw [(isExactly_ofNat hpos hsignificand).div hpower (by omega),
        toFloat_eq_nearestFloat hpos hsignificand hexponent, Int.toNat_of_nonpos hnegative.le,
        pow_zero, mul_one, show (-exponent).toNat = exponent.natAbs by omega]
  · have hproduct : Float.ofNat significand * powerOfTen exponent.natAbs =
        Decimal.toFloat ⟨significand, exponent⟩ := by
      rcases Nat.eq_zero_or_pos significand with rfl | hpos
      · rw [hzero, hpower.zero_mul]
      · rw [(isExactly_ofNat hpos hsignificand).mul hpower,
          toFloat_eq_nearestFloat hpos hsignificand hexponent,
          show exponent.toNat = exponent.natAbs by omega,
          show (-exponent).toNat = 0 by omega, pow_zero]
    rw [if_neg hnegative, if_pos (by omega), hproduct,
      (isMagnitude_toFloat hsignificand hexponent).isInf, if_neg Bool.false_ne_true]

end

end Rollout.Double
