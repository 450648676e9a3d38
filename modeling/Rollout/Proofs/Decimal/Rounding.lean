import Rollout.Proofs.Decimal.Packing

/-!
# Rounding to the nearest double

`nearestFloat` rounds a quotient of natural numbers once.  Arithmetic on doubles computes a quotient
to some places more than fit, with two bits that tell what is left, and shifts it right.  Both come
to the same double (`pack_roundWithAccuracy`): each shift keeps the two bits in step with the
quotient, as a shift by one place doubles the denominator (`shiftRightOne_quotientMantissa`), and
rounding depends on the quotient alone (`roundDiv_congr`).
-/

namespace Rollout.Double

open Float.Model (Format totalExponent)
open Float.Model.UnpackedFloat

/-! ## Rounding to a natural number -/

theorem roundDiv_mul_right {num den c : Nat} (hc : 0 < c) :
    roundDiv (num * c) (den * c) = roundDiv num den := by
  have hlt : 2 * (num % den * c) < den * c ↔ 2 * (num % den) < den := by
    rw [← Nat.mul_assoc]
    exact Nat.mul_lt_mul_right hc
  have hgt : den * c < 2 * (num % den * c) ↔ den < 2 * (num % den) := by
    rw [← Nat.mul_assoc]
    exact Nat.mul_lt_mul_right hc
  unfold roundDiv
  simp only [Nat.mul_div_mul_right _ _ hc, Nat.mul_mod_mul_right, hlt, hgt]

/-- Rounding depends on the quotient alone. -/
theorem roundDiv_congr {num den num' den' : Nat} (hden : 0 < den) (hden' : 0 < den')
    (h : (num : ℚ) / den = num' / den') : roundDiv num den = roundDiv num' den' := by
  have hcross : num * den' = num' * den := by
    rw [div_eq_div_iff (by positivity) (by positivity)] at h
    exact_mod_cast h
  rw [← roundDiv_mul_right hden', hcross, Nat.mul_comm den den', roundDiv_mul_right hden]

theorem roundDiv_bounds (num den : Nat) :
    num / den ≤ roundDiv num den ∧ roundDiv num den ≤ num / den + 1 := by
  simp only [roundDiv]
  split_ifs <;> omega

theorem roundDiv_one (n : Nat) : roundDiv n 1 = n := by
  simp [roundDiv, Nat.mod_one]

section

variable {num den : Nat}

/-! ## Mantissas with what is left -/

/-- The floor of a quotient, whether at least half of a unit is left of it, and whether what is left
is neither nothing nor just that half. -/
def quotientMantissa (num den : Nat) : ExtendedMantissa :=
  ⟨num / den, decide (den ≤ 2 * (num % den)), decide (num % den ≠ 0 ∧ 2 * (num % den) ≠ den)⟩

theorem ofMantissaAndAccuracy_accuracyOfFraction (hden : 0 < den) :
    ExtendedMantissa.ofMantissaAndAccuracy (num / den) (accuracyOfFraction (num % den) den) =
      quotientMantissa num den := by
  unfold accuracyOfFraction quotientMantissa
  split
  next hnone => simp [hnone, ExtendedMantissa.ofMantissaAndAccuracy, hden.ne']
  next hsome =>
    rcases lt_trichotomy (2 * (num % den)) den with hlt | heq | hgt
    · rw [Nat.compare_eq_lt.mpr hlt]
      simp [ExtendedMantissa.ofMantissaAndAccuracy, hsome, hlt, hlt.ne]
    · rw [Nat.compare_eq_eq.mpr heq]
      simp [ExtendedMantissa.ofMantissaAndAccuracy, heq]
    · rw [Nat.compare_eq_gt.mpr hgt]
      simp [ExtendedMantissa.ofMantissaAndAccuracy, hsome, hgt.le, hgt.ne']

theorem roundedMantissa_quotientMantissa (hden : 0 < den) :
    (quotientMantissa num den).roundedMantissa = roundDiv num den := by
  unfold quotientMantissa roundDiv
  generalize num % den = rest
  rcases lt_trichotomy (2 * rest) den with hlt | heq | hgt
  · simp only [hlt, hlt.ne, hlt.not_ge, decide_false, ne_eq, not_false_eq_true, and_true, if_true]
    cases decide (¬rest = 0) with
    | false => rfl
    | true => rfl
  · simp only [heq, le_refl, ne_eq, not_true_eq_false, and_false, decide_true, decide_false,
      lt_irrefl, if_false]
    show num / den + num / den % 2 = _
    split
    next heven => rw [heven, Nat.add_zero]
    next hodd => rw [Nat.mod_two_ne_zero.mp hodd]
  · have hsome : rest ≠ 0 := by omega
    simp only [hgt.le, hgt.ne', hsome, hgt.not_gt, hgt, ne_eq, not_false_eq_true, and_true,
      decide_true, if_false, if_true]
    rfl

/-- A shift by one place doubles the denominator. -/
theorem shiftRightOne_quotientMantissa (hden : 0 < den) :
    (quotientMantissa num den).shiftRightOne = quotientMantissa num (den * 2) := by
  have hrest : num % (den * 2) = num % den + den * (num / den % 2) := Nat.mod_mul
  have hlt := Nat.mod_lt num hden
  unfold quotientMantissa ExtendedMantissa.shiftRightOne
  rw [hrest, ← Nat.div_div_eq_div_mul]
  generalize num % den = rest at *
  generalize num / den = quotient
  rcases Nat.mod_two_eq_zero_or_one quotient with heven | hodd
  · rw [heven]
    congr 1
    · simp
      omega
    · grind
  · rw [hodd]
    congr 1
    · simp
      omega
    · grind

theorem shiftRight_quotientMantissa (hden : 0 < den) (n : Nat) :
    quotientMantissa num den >>> n = quotientMantissa num (den * 2 ^ n) := by
  induction n with
  | zero => rw [pow_zero, Nat.mul_one]; rfl
  | succ n ih =>
    show ExtendedMantissa.shiftRightOne (quotientMantissa num den >>> n) = _
    rw [ih, shiftRightOne_quotientMantissa (by positivity), Nat.mul_assoc, ← pow_succ]

/-! ## The last place -/

theorem zpow_eq_div (e : Int) : (2 : ℚ) ^ e = 2 ^ e.toNat / 2 ^ (-e).toNat := by
  rw [← zpow_natCast, ← zpow_natCast, ← zpow_sub₀ two_ne_zero]
  congr 1
  omega

theorem log_eq_of_bounds {x : ℚ} {e : Int} (hlow : 2 ^ e ≤ x) (hhigh : x < 2 ^ (e + 1)) :
    Int.log 2 x = e := by
  have hx : 0 < x := lt_of_lt_of_le (by positivity) hlow
  have hle := (Int.zpow_le_iff_le_log (b := 2) one_lt_two hx).mp (by exact_mod_cast hlow)
  have hlt := (Int.lt_zpow_iff_log_lt (b := 2) one_lt_two hx).mp (by exact_mod_cast hhigh)
  omega

/-- The exponent of the last place in the double nearest to a positive number. -/
def lastPlace (x : ℚ) : Int := max (Int.log 2 x - 52) (-1074)

/-- The logarithm of a quotient is the difference of those of its parts, or one less. -/
theorem log_div (hnum : 0 < num) (hden : 0 < den) :
    let guess : Int := (num.log2 : Int) - den.log2
    Int.log 2 (num / den : ℚ) =
      if den * 2 ^ guess.toNat ≤ num * 2 ^ (-guess).toNat then guess else guess - 1 := by
  intro guess
  have hnum₁ : (2 : ℚ) ^ num.log2 ≤ num := by exact_mod_cast Nat.log2_self_le hnum.ne'
  have hnum₂ : (num : ℚ) < 2 ^ (num.log2 + 1) := by exact_mod_cast Nat.lt_log2_self
  have hden₁ : (2 : ℚ) ^ den.log2 ≤ den := by exact_mod_cast Nat.log2_self_le hden.ne'
  have hden₂ : (den : ℚ) < 2 ^ (den.log2 + 1) := by exact_mod_cast Nat.lt_log2_self
  have hden₀ : (0 : ℚ) < den := by exact_mod_cast hden
  have hhigh : (num / den : ℚ) < 2 ^ (guess + 1) := by
    rw [div_lt_iff₀ hden₀]
    calc (num : ℚ) < 2 ^ (num.log2 + 1) := hnum₂
      _ = 2 ^ (guess + 1) * 2 ^ den.log2 := by
        rw [← zpow_natCast, ← zpow_natCast, ← zpow_add₀ two_ne_zero]
        congr 1
        push_cast
        omega
      _ ≤ 2 ^ (guess + 1) * den := by gcongr
  have hlow : 2 ^ (guess - 1) < (num / den : ℚ) := by
    rw [lt_div_iff₀ hden₀]
    calc (2 : ℚ) ^ (guess - 1) * den < 2 ^ (guess - 1) * 2 ^ (den.log2 + 1) := by gcongr
      _ = 2 ^ num.log2 := by
        rw [← zpow_natCast, ← zpow_natCast, ← zpow_add₀ two_ne_zero]
        congr 1
        push_cast
        omega
      _ ≤ num := hnum₁
  have hiff : den * 2 ^ guess.toNat ≤ num * 2 ^ (-guess).toNat ↔ (2 : ℚ) ^ guess ≤ num / den := by
    rw [zpow_eq_div, div_le_div_iff₀ (by positivity) hden₀, mul_comm]
    exact_mod_cast Iff.rfl
  split
  next hle => exact log_eq_of_bounds (hiff.mp hle) hhigh
  next hnot =>
    refine log_eq_of_bounds hlow.le ?_
    rw [sub_add_cancel]
    exact lt_of_not_ge fun hle => hnot (hiff.mpr hle)

/-- In units of its last place a number has fifty-three bits, or fewer where the exponent is the
least. -/
theorem div_bounds {e : Int} (hnum : 0 < num) (hden : 0 < den) (he : lastPlace (num / den) = e)
    {num' den' : Nat} (hden' : 0 < den') (h : (num' : ℚ) / den' = num / den / 2 ^ e) :
    num' / den' < 2 ^ 53 ∧ (2 ^ 52 ≤ num' / den' ∨ e = -1074) := by
  have hx : (0 : ℚ) < num / den := by positivity
  constructor
  · rw [Nat.div_lt_iff_lt_mul hden']
    have hlt : (num' / den' : ℚ) < 2 ^ 53 := by
      rw [h, div_lt_iff₀ (by positivity)]
      calc (num / den : ℚ) < 2 ^ (Int.log 2 (num / den : ℚ) + 1) := by
            exact_mod_cast Int.lt_zpow_succ_log_self (b := 2) one_lt_two (num / den : ℚ)
        _ ≤ 2 ^ ((53 : Int) + e) :=
          zpow_le_zpow_right₀ one_le_two (by unfold lastPlace at he; omega)
        _ = 2 ^ 53 * 2 ^ e := by rw [zpow_add₀ two_ne_zero]; rfl
    rw [div_lt_iff₀ (by positivity)] at hlt
    exact_mod_cast hlt
  · rw [Nat.le_div_iff_mul_le hden']
    refine or_iff_not_imp_right.mpr fun hmin => ?_
    have hle : (2 ^ 52 : ℚ) ≤ num' / den' := by
      rw [h, le_div_iff₀ (by positivity)]
      calc (2 ^ 52 : ℚ) * 2 ^ e = 2 ^ ((52 : Int) + e) := by rw [zpow_add₀ two_ne_zero]; rfl
        _ = 2 ^ Int.log 2 (num / den : ℚ) := by
          congr 1
          unfold lastPlace at he
          omega
        _ ≤ num / den := by exact_mod_cast Int.zpow_log_le_self (b := 2) one_lt_two hx
    rw [le_div_iff₀ (by positivity)] at hle
    exact_mod_cast hle

/-- A quotient in units of the place `e`, with natural numbers. -/
theorem units_eq (hden : 0 < den) (e : Int) :
    ((num * 2 ^ (-e).toNat : Nat) : ℚ) / (den * 2 ^ e.toNat : Nat) = num / den / 2 ^ e := by
  rw [zpow_eq_div e]
  push_cast
  field_simp

/-! ## The nearest double -/

/-- The nearest double comes from the quotient in units of its last place. -/
theorem nearestFloat_eq_carried (hnum : 0 < num) (hden : 0 < den) {e : Int}
    (he : lastPlace (num / den) = e) {num' den' : Nat} (hden' : 0 < den')
    (h : (num' : ℚ) / den' = num / den / 2 ^ e) :
    nearestFloat num den = .ofModel (.pack (carried .positive (roundDiv num' den') e)) := by
  have hnearest : nearestFloat num den = Float.ofBits (min (packedBits
      (roundDiv (num * 2 ^ (-e).toNat) (den * 2 ^ e.toNat)) e) infinityBits).toUInt64 := by
    unfold nearestFloat
    rw [if_neg hnum.ne']
    dsimp only
    rw [← log_div hnum hden, ← he]
    rfl
  have hleast : -1074 ≤ e := he ▸ le_max_right _ _
  have hfloor := div_bounds hnum hden he hden' h
  have hrounded := roundDiv_bounds num' den'
  rw [hnearest, roundDiv_congr (by positivity) hden' ((units_eq hden e).trans h.symm)]
  exact ofBits_eq_carried (by omega) hleast (hfloor.2.imp_left fun hlow => hlow.trans hrounded.1)

theorem isMagnitude_nearestFloat (hnum : 0 < num) (hden : 0 < den) (h : num < 2 ^ 200 * den) :
    IsMagnitude (nearestFloat num den) := by
  obtain ⟨e, he⟩ : ∃ e, lastPlace (num / den : ℚ) = e := ⟨_, rfl⟩
  have hscale : 0 < den * 2 ^ e.toNat := by positivity
  have hleast : -1074 ≤ e := he ▸ le_max_right _ _
  have hmost : e ≤ 147 := by
    have hlog : Int.log 2 (num / den : ℚ) < 200 := by
      refine (Int.lt_zpow_iff_log_lt one_lt_two (by positivity)).mp ?_
      rw [div_lt_iff₀ (by positivity)]
      exact_mod_cast h
    unfold lastPlace at he
    omega
  have hfloor := div_bounds hnum hden he hscale (units_eq hden e)
  have hrounded := roundDiv_bounds (num * 2 ^ (-e).toNat) (den * 2 ^ e.toNat)
  rw [nearestFloat_eq_carried hnum hden he hscale (units_eq hden e)]
  generalize roundDiv (num * 2 ^ (-e).toNat) (den * 2 ^ e.toNat) = rounded at *
  unfold carried
  split
  next => exact ⟨2 ^ 52, e + 1, rfl, fun hpos => ⟨hpos, by decide, by omega, by omega, .inl le_rfl⟩⟩
  next =>
    exact ⟨rounded, e, rfl, fun hpos => ⟨hpos, by omega, hleast, by omega,
      hfloor.2.imp_left fun hlow => hlow.trans hrounded.1⟩⟩

/-! ## Rounding by shifts -/

theorem targetExponent_eq (e : Int) : Format.targetExponent .binary64 e = max (e - 53) (-1074) :=
  rfl

/-- A mantissa that fits needs no shift. -/
theorem shiftToTargetExponent_of_lt {mantissa : Nat} {e : Int} (hlt : mantissa < 2 ^ 53)
    (he : -1074 ≤ e) :
    shiftToTargetExponent .binary64 mantissa e .exact = (⟨mantissa, false, false⟩, e) := by
  have hlog : mantissa.log2 ≤ 52 := by
    rcases Nat.eq_zero_or_pos mantissa with rfl | hpos
    · decide
    · exact Nat.le_of_lt_succ ((Nat.log2_lt hpos.ne').mpr hlt)
  have htarget : Format.targetExponent .binary64 (totalExponent mantissa e) ≤ e := by
    rw [targetExponent_eq, totalExponent]
    omega
  unfold shiftToTargetExponent shiftToExponent
  dsimp only
  rw [Int.toNat_of_nonpos (by omega), Nat.cast_zero, add_zero]
  rfl

theorem shiftToTargetExponent_two_pow {e : Int} (he : -1074 ≤ e) :
    shiftToTargetExponent .binary64 (2 ^ 53) e .exact = (⟨2 ^ 52, false, false⟩, e + 1) := by
  have htarget : Format.targetExponent .binary64 (totalExponent (2 ^ 53) e) = e + 1 := by
    rw [targetExponent_eq, totalExponent, Nat.log2_two_pow]
    omega
  unfold shiftToTargetExponent shiftToExponent
  dsimp only
  rw [htarget, show (e + 1 - e).toNat = 1 by omega]
  rfl

/-- The exponent that a quotient is shifted to is that of its last place. -/
theorem targetExponent_div (hden : 0 < den) (hle : den ≤ num) (e : Int) :
    Format.targetExponent .binary64 (totalExponent (num / den) e) =
      lastPlace (num / den * 2 ^ e) := by
  have hone : (1 : ℚ) ≤ num / den := by
    rw [one_le_div (by positivity)]
    exact_mod_cast hle
  have hlog : Int.log 2 (num / den * 2 ^ e : ℚ) = Int.log 2 (num / den : ℚ) + e := by
    refine log_eq_of_bounds ?_ ?_
    · rw [zpow_add₀ two_ne_zero]
      gcongr
      exact_mod_cast Int.zpow_log_le_self (b := 2) one_lt_two (zero_lt_one.trans_le hone)
    · rw [add_right_comm, zpow_add₀ two_ne_zero]
      gcongr
      exact_mod_cast Int.lt_zpow_succ_log_self (b := 2) one_lt_two (num / den : ℚ)
  rw [lastPlace, hlog, Int.log_of_one_le_right 2 hone, Nat.floor_div_eq_div,
    ← Nat.log2_eq_log_two, targetExponent_eq, totalExponent]
  omega

theorem roundWithAccuracy_eq_carried (sign : Sign) (hden : 0 < den) (hle : den ≤ num) {e t : Int}
    (ht : lastPlace (num / den * 2 ^ e) = t) (he : e ≤ t)
    (hmost : roundDiv num (den * 2 ^ (t - e).toNat) ≤ 2 ^ 53) :
    roundWithAccuracy .binary64 sign (num / den) e (accuracyOfFraction (num % den) den) =
      carried sign (roundDiv num (den * 2 ^ (t - e).toNat)) t := by
  have hleast : -1074 ≤ t := ht ▸ le_max_right _ _
  have hshift : shiftToTargetExponent .binary64 (num / den) e
      (accuracyOfFraction (num % den) den) =
        (quotientMantissa num (den * 2 ^ (t - e).toNat), t) := by
    unfold shiftToTargetExponent shiftToExponent
    dsimp only
    rw [targetExponent_div hden hle, ht, ofMantissaAndAccuracy_accuracyOfFraction hden,
      shiftRight_quotientMantissa hden, Int.toNat_of_nonneg (by omega), add_sub_cancel]
  unfold roundWithAccuracy carried
  rw [hshift]
  dsimp only
  rw [roundedMantissa_quotientMantissa (by positivity)]
  show unpacked sign _ _ = _
  split
  next hcarry => rw [hcarry, shiftToTargetExponent_two_pow hleast]
  next => rw [shiftToTargetExponent_of_lt (by omega) hleast]

/-- Rounding `num / den * 2 ^ e` by shifts gives the double nearest to it. -/
theorem pack_roundWithAccuracy (hden : 0 < den) (hle : den ≤ num) {e : Int} {num' den' : Nat}
    (hnum' : 0 < num') (hden' : 0 < den') (h : (num' : ℚ) / den' = num / den * 2 ^ e)
    (he : e ≤ lastPlace (num / den * 2 ^ e)) :
    .ofModel (.pack (roundWithAccuracy .binary64 .positive (num / den) e
      (accuracyOfFraction (num % den) den))) = nearestFloat num' den' := by
  obtain ⟨t, ht⟩ : ∃ t, lastPlace (num / den * 2 ^ e) = t := ⟨_, rfl⟩
  rw [ht] at he
  have hunits : (num : ℚ) / (den * 2 ^ (t - e).toNat : Nat) = num' / den' / 2 ^ t := by
    rw [h]
    push_cast
    rw [← zpow_natCast, Int.toNat_of_nonneg (by omega), zpow_sub₀ two_ne_zero]
    field_simp
  have hscale : 0 < den * 2 ^ (t - e).toNat := by positivity
  have hfloor := div_bounds hnum' hden' (by rw [h, ht]) hscale hunits
  have hrounded := roundDiv_bounds num (den * 2 ^ (t - e).toNat)
  rw [nearestFloat_eq_carried hnum' hden' (by rw [h, ht]) hscale hunits,
    roundWithAccuracy_eq_carried .positive hden hle ht he (by omega)]

end

end Rollout.Double
