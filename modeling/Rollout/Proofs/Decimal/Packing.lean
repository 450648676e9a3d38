import Mathlib
import Rollout.Decimal.Nearest

/-!
# The bits of doubles

A finite double other than zero is a mantissa and an exponent: the mantissa has fifty-three bits, or
the exponent is the least one (`Canonical`).  Its bits are those of both together, added up
(`packedBits`): the leading bit of the mantissa is not stored, and takes the exponent to the next
one.  So a mantissa that rounding has made one bit longer carries into the exponent by itself
(`ofBits_eq_carried`).
-/

namespace Rollout.Double

open Float.Model (Format)
open Float.Model.UnpackedFloat

/-! ## Fields -/

theorem toNat_packComponents (sign : Sign) (exponent : BitVec 11) (mantissa : BitVec 52) :
    (packComponents .binary64 sign exponent mantissa).toNat =
      sign.toBitVec.toNat * 2 ^ 63 + exponent.toNat * 2 ^ 52 + mantissa.toNat := by
  unfold packComponents
  rw [BitVec.toNat_append, ← Nat.shiftLeft_add_eq_or_of_lt mantissa.isLt, BitVec.toNat_append,
    ← Nat.shiftLeft_add_eq_or_of_lt exponent.isLt, Nat.shiftLeft_eq, Nat.shiftLeft_eq]
  show (sign.toBitVec.toNat * 2 ^ 11 + exponent.toNat) * 2 ^ 52 + _ = _
  omega

theorem ofBitVec_unpackSign_packComponents (sign : Sign) (exponent : BitVec 11)
    (mantissa : BitVec 52) :
    Sign.ofBitVec (unpackSign (packComponents .binary64 sign exponent mantissa)) = sign := by
  simp only [unpackSign, packComponents, BitVec.extractLsb]
  rw [BitVec.extractLsb'_append_eq_of_le (by omega), BitVec.extractLsb'_append_eq_of_le (by omega)]
  cases sign with
  | negative => rfl
  | positive => rfl

section

variable (sign : Sign) {field : BitVec 11} {fraction : BitVec 52}

/-- The leading bit of a mantissa is not stored. -/
theorem unpack_of_normal (hfinite : field ≠ -1#11) (hnormal : field ≠ 0#11) :
    unpack .binary64 (packComponents .binary64 sign field fraction) =
      .finite sign (2 ^ 52 + fraction.toNat) (field.toNat - 1075) (by omega) := by
  have himplicit : (1#1 ++ fraction).toNat = 2 ^ 52 + fraction.toNat := by
    rw [BitVec.toNat_append, ← Nat.shiftLeft_add_eq_or_of_lt fraction.isLt, Nat.shiftLeft_eq,
      BitVec.toNat_ofNat]
  unfold unpack
  simp only [unpackMantissa_packComponents, unpackExponent_packComponents,
    ofBitVec_unpackSign_packComponents, if_neg hfinite, if_neg hnormal, himplicit]
  rfl

/-- At the least exponent all bits are stored. -/
theorem unpack_of_subnormal (hfraction : fraction ≠ 0#52) :
    unpack .binary64 (packComponents .binary64 sign 0#11 fraction) =
      .finite sign fraction.toNat (-1074)
        (Nat.pos_of_ne_zero fun h => hfraction (BitVec.eq_of_toNat_eq h)) := by
  have hfinite : (0#11) ≠ -1#11 := by decide
  unfold unpack
  simp only [unpackMantissa_packComponents, unpackExponent_packComponents,
    ofBitVec_unpackSign_packComponents, if_neg hfinite, if_true, dif_neg hfraction]
  rfl

end

/-! ## Mantissa and exponent -/

/-- The mantissa and the exponent of a finite double other than zero. -/
structure Canonical (mantissa : Nat) (exponent : Int) : Prop where
  pos : 0 < mantissa
  lt : mantissa < 2 ^ 53
  least : -1074 ≤ exponent
  most : exponent ≤ 971
  normal : 2 ^ 52 ≤ mantissa ∨ exponent = -1074

/-- Exponent and mantissa, one above the other. -/
def packedBits (mantissa : Nat) (exponent : Int) : Nat :=
  (exponent + 1074).toNat * 2 ^ 52 + mantissa

section

variable {mantissa : Nat} {exponent : Int}

theorem log2_add_one_eq_iff (h : 0 < mantissa) (hlt : mantissa < 2 ^ 53) :
    mantissa.log2 + 1 = 53 ↔ 2 ^ 52 ≤ mantissa := by
  have hlog : mantissa.log2 < 53 := (Nat.log2_lt h.ne').mpr hlt
  rw [← Nat.le_log2 h.ne']
  omega

theorem finite_congr (sign : Sign) {mantissa' : Nat} {exponent' : Int}
    (hmantissa : mantissa = mantissa') (hexponent : exponent = exponent') {h : 0 < mantissa}
    {h' : 0 < mantissa'} :
    Float.Model.UnpackedFloat.finite sign mantissa exponent h =
      .finite sign mantissa' exponent' h' := by
  subst hmantissa hexponent
  rfl

namespace Canonical

theorem packedBits_lt (h : Canonical mantissa exponent) :
    packedBits mantissa exponent < infinityBits := by
  obtain ⟨-, hlt, hleast, hmost, -⟩ := h
  unfold packedBits infinityBits
  omega

theorem pack_finite (h : Canonical mantissa exponent) (sign : Sign) :
    pack .binary64 (.finite sign mantissa exponent h.pos) =
      packComponents .binary64 sign (BitVec.ofNat 11 (packedBits mantissa exponent / 2 ^ 52))
        (BitVec.ofNat 52 mantissa) := by
  obtain ⟨hpos, hlt, hleast, hmost, hnormal⟩ := h
  have hbiased : (exponent + Format.exponentBias .binary64 +
      Format.binary64.mantissaBitsWithoutImplicit).toNat = (exponent + 1075).toNat := by
    show (exponent + 1023 + 52).toNat = _
    omega
  unfold pack
  rw [hbiased, if_neg (show ¬2 ^ 11 ≤ (exponent + 1075).toNat + 1 by omega)]
  split
  next hlog =>
    have hlow := (log2_add_one_eq_iff hpos hlt).mp hlog
    have hfield : packedBits mantissa exponent / 2 ^ 52 = (exponent + 1075).toNat := by
      unfold packedBits
      omega
    rw [hfield]
  next hlog =>
    have hlow : mantissa < 2 ^ 52 := Nat.lt_of_not_le fun hlow =>
      hlog ((log2_add_one_eq_iff hpos hlt).mpr hlow)
    have hfield : packedBits mantissa exponent / 2 ^ 52 = 0 := by
      unfold packedBits
      omega
    rw [hfield]

theorem unpack_pack (h : Canonical mantissa exponent) (sign : Sign) :
    unpack .binary64 (pack .binary64 (.finite sign mantissa exponent h.pos)) =
      .finite sign mantissa exponent h.pos := by
  rw [h.pack_finite]
  obtain ⟨hpos, hlt, hleast, hmost, hnormal⟩ := h
  have hfraction : (BitVec.ofNat 52 mantissa).toNat = mantissa % 2 ^ 52 :=
    BitVec.toNat_ofNat mantissa 52
  by_cases hlow : 2 ^ 52 ≤ mantissa
  · have hfield : packedBits mantissa exponent / 2 ^ 52 = (exponent + 1075).toNat := by
      unfold packedBits
      omega
    have hvalue : (BitVec.ofNat 11 (exponent + 1075).toNat).toNat = (exponent + 1075).toNat := by
      rw [BitVec.toNat_ofNat]
      exact Nat.mod_eq_of_lt (by omega)
    have hfinite : BitVec.ofNat 11 (exponent + 1075).toNat ≠ -1#11 := by
      intro heq
      rw [heq, show (-1#11).toNat = 2047 by decide] at hvalue
      omega
    have hleading : BitVec.ofNat 11 (exponent + 1075).toNat ≠ 0#11 := by
      intro heq
      rw [heq, show (0#11).toNat = 0 by decide] at hvalue
      omega
    rw [hfield, unpack_of_normal sign hfinite hleading]
    exact finite_congr sign (by omega) (by omega)
  · have hfield : packedBits mantissa exponent / 2 ^ 52 = 0 := by
      unfold packedBits
      omega
    have hsome : BitVec.ofNat 52 mantissa ≠ 0#52 := by
      intro heq
      rw [heq, show (0#52).toNat = 0 by decide] at hfraction
      omega
    rw [hfield, unpack_of_subnormal sign hsome]
    exact finite_congr sign (by omega) (by omega)

theorem toNat_pack (h : Canonical mantissa exponent) :
    (pack .binary64 (.finite .positive mantissa exponent h.pos)).toNat =
      packedBits mantissa exponent := by
  have hbits := h.packedBits_lt
  have hsign : Sign.positive.toBitVec.toNat = 0 := rfl
  rw [h.pack_finite, toNat_packComponents, hsign, BitVec.toNat_ofNat, BitVec.toNat_ofNat]
  unfold packedBits infinityBits at *
  omega

/-- The double with these bits. -/
theorem ofBits_packedBits (h : Canonical mantissa exponent) :
    Float.ofBits (packedBits mantissa exponent).toUInt64 =
      .ofModel (.pack (.finite .positive mantissa exponent h.pos)) := by
  have hvec : (packedBits mantissa exponent).toUInt64.toBitVec =
      pack .binary64 (.finite .positive mantissa exponent h.pos) := by
    refine BitVec.eq_of_toNat_eq ?_
    have hbits := h.packedBits_lt
    rw [h.toNat_pack, Nat.toUInt64_eq, UInt64.toBitVec_ofNat', BitVec.toNat_ofNat]
    generalize packedBits mantissa exponent = bits at hbits
    unfold infinityBits at hbits
    exact Nat.mod_eq_of_lt (by omega)
  unfold Float.ofBits Float.Model.ofBits
  rw [hvec, h.unpack_pack]

end Canonical

end

/-! ## Zero, infinity and the carry -/

/-- The double with a mantissa and an exponent, zero if the mantissa is. -/
def unpacked (sign : Sign) (mantissa : Nat) (exponent : Int) : Float.Model.UnpackedFloat :=
  if h : mantissa = 0 then .zero sign else .finite sign mantissa exponent (Nat.pos_of_ne_zero h)

theorem unpacked_zero (sign : Sign) (exponent : Int) : unpacked sign 0 exponent = .zero sign :=
  dif_pos rfl

theorem unpacked_of_pos (sign : Sign) {mantissa : Nat} (h : 0 < mantissa) (exponent : Int) :
    unpacked sign mantissa exponent = .finite sign mantissa exponent h :=
  dif_neg h.ne'

/-- What rounding makes of a mantissa: one that has outgrown its places is carried. -/
def carried (sign : Sign) (mantissa : Nat) (exponent : Int) : Float.Model.UnpackedFloat :=
  if mantissa = 2 ^ 53 then unpacked sign (2 ^ 52) (exponent + 1)
  else unpacked sign mantissa exponent

section

variable {mantissa : Nat} {exponent : Int}

/-- An exponent that is too large makes the double infinite. -/
theorem ofBits_eq_unpacked (hlt : mantissa < 2 ^ 53) (hleast : -1074 ≤ exponent)
    (hnormal : 2 ^ 52 ≤ mantissa ∨ exponent = -1074) :
    Float.ofBits (min (packedBits mantissa exponent) infinityBits).toUInt64 =
      .ofModel (.pack (unpacked .positive mantissa exponent)) := by
  rcases Nat.eq_zero_or_pos mantissa with rfl | hpos
  · obtain rfl : exponent = -1074 := hnormal.resolve_left (by omega)
    rfl
  rw [unpacked_of_pos .positive hpos]
  by_cases hmost : exponent ≤ 971
  · have hcanonical : Canonical mantissa exponent := ⟨hpos, hlt, hleast, hmost, hnormal⟩
    rw [Nat.min_eq_left hcanonical.packedBits_lt.le, hcanonical.ofBits_packedBits]
  · have hbits : infinityBits ≤ packedBits mantissa exponent := by
      unfold packedBits infinityBits
      omega
    have hinfinity : Float.ofBits infinityBits.toUInt64 = .ofModel (.pack (.infinity .positive)) :=
      rfl
    have hoverflow : pack .binary64 (.finite .positive mantissa exponent hpos) =
        packedInfinity .binary64 .positive := by
      unfold pack
      refine if_pos ?_
      show 2 ^ 11 ≤ (exponent + 1023 + 52).toNat + 1
      omega
    rw [Nat.min_eq_right hbits, hinfinity]
    simp only [Float.Model.pack, hoverflow]
    rfl

theorem ofBits_eq_carried (hle : mantissa ≤ 2 ^ 53) (hleast : -1074 ≤ exponent)
    (hnormal : 2 ^ 52 ≤ mantissa ∨ exponent = -1074) :
    Float.ofBits (min (packedBits mantissa exponent) infinityBits).toUInt64 =
      .ofModel (.pack (carried .positive mantissa exponent)) := by
  unfold carried
  split
  next hcarry =>
    have hbits : packedBits mantissa exponent = packedBits (2 ^ 52) (exponent + 1) := by
      unfold packedBits
      omega
    rw [hbits, ofBits_eq_unpacked (by decide) (by omega) (.inl (Nat.le_refl _))]
  next => exact ofBits_eq_unpacked (by omega) hleast hnormal

end

/-! ## Finite doubles -/

/-- A double that is finite and not negative. -/
def IsMagnitude (x : Float) : Prop :=
  ∃ mantissa exponent, x = .ofModel (.pack (unpacked .positive mantissa exponent)) ∧
    (0 < mantissa → Canonical mantissa exponent)

/-- It is finite with either sign. -/
theorem IsMagnitude.isFinite {x : Float} (h : IsMagnitude x) (negative : Bool) :
    (if negative then -x else x).isFinite = true := by
  obtain ⟨mantissa, exponent, rfl, hcanonical⟩ := h
  rcases Nat.eq_zero_or_pos mantissa with rfl | hpos
  · rw [unpacked_zero]
    cases negative with
    | false => rfl
    | true => rfl
  · have hcanonical := hcanonical hpos
    rw [unpacked_of_pos .positive hpos]
    cases negative with
    | false =>
      show (unpack .binary64 (pack .binary64 _)).isFinite = true
      rw [hcanonical.unpack_pack]
      rfl
    | true =>
      show (unpack .binary64 (pack .binary64 (neg (unpack .binary64 (pack .binary64 _))))).isFinite
        = true
      rw [hcanonical.unpack_pack]
      show (unpack .binary64 (pack .binary64 (.finite .negative mantissa exponent hpos))).isFinite
        = true
      rw [hcanonical.unpack_pack]
      rfl

theorem IsMagnitude.isInf {x : Float} (h : IsMagnitude x) : x.isInf = false := by
  have hfinite : x.toModel.unpack.isFinite = true := h.isFinite false
  show x.toModel.unpack.isInf = false
  generalize x.toModel.unpack = f at hfinite
  cases f with
  | infinity => cases hfinite
  | notANumber => cases hfinite
  | zero => rfl
  | finite => rfl

end Rollout.Double
