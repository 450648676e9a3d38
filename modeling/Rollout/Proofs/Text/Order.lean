import Rollout.Proofs.Store.Key

/-!
# The order of texts

Texts are compared character by character.  That is the order of their bytes
(`ByteKey.ofText_le_iff`): the bytes of a character say its number in the order of numbers, the lead
byte first, and a longer encoding has a larger lead byte.

`Climbs` says of an encoding of numbers that it keeps their order.  No encoding is the beginning of
another there, so whatever follows has no say, and such encodings can be put together digit by digit
(`Climbs.digit`).
-/

namespace Rollout

namespace ByteKey

/-! ## Encodings of numbers -/

theorem ofNat_lt_ofNat {a b : Nat} (h : a < b) (hb : b < 256) : UInt8.ofNat a < UInt8.ofNat b := by
  rw [UInt8.lt_iff_toNat_lt, UInt8.toNat_ofNat', UInt8.toNat_ofNat']
  omega

/-- The encoding has the order of the numbers below the bound, whatever follows. -/
def Climbs (encode : Nat → List UInt8) (bound : Nat) : Prop :=
  ∀ m n, m < n → n < bound → ∀ r s, encode m ++ r < encode n ++ s

/-- A lead byte carries a digit of its own width. -/
theorem climbs_lead {width offset : Nat} (h : width + offset ≤ 256) :
    Climbs (fun v => [UInt8.ofNat (v % width + offset)]) width := by
  intro m n hlt hn r s
  have hm : m < width := Nat.lt_trans hlt hn
  refine List.cons_lt_cons_iff.mpr (.inl (ofNat_lt_ofNat ?_ ?_))
  · rw [Nat.mod_eq_of_lt hm, Nat.mod_eq_of_lt hn]
    omega
  · rw [Nat.mod_eq_of_lt hn]
    omega

/-- Behind the rest of a number, a continuation byte carries its last digit. -/
theorem Climbs.digit {encode : Nat → List UInt8} {bound : Nat} (h : Climbs encode bound) :
    Climbs (fun v => encode (v / 64) ++ [UInt8.ofNat (v % 64 + 128)]) (bound * 64) := by
  intro m n hlt hn r s
  have hrest : n / 64 < bound := by omega
  rw [List.append_assoc, List.append_assoc]
  rcases Nat.lt_or_ge (m / 64) (n / 64) with hdiv | hdiv
  · exact h _ _ hdiv hrest _ _
  · have heq : m / 64 = n / 64 := by omega
    have hdigit : m % 64 + 128 < n % 64 + 128 := by omega
    rw [heq]
    exact List.append_left_lt (List.cons_lt_cons_iff.mpr (.inl (ofNat_lt_ofNat hdigit (by omega))))

/-! ## Characters -/

/-- The numbers of one to four bytes. -/
def oneByte (v : Nat) : List UInt8 := [UInt8.ofNat (v % 128 + 0)]

def twoBytes (v : Nat) : List UInt8 :=
  [UInt8.ofNat (v / 64 % 32 + 192)] ++ [UInt8.ofNat (v % 64 + 128)]

def threeBytes (v : Nat) : List UInt8 :=
  [UInt8.ofNat (v / 64 / 64 % 16 + 224)] ++ [UInt8.ofNat (v / 64 % 64 + 128)] ++
    [UInt8.ofNat (v % 64 + 128)]

def fourBytes (v : Nat) : List UInt8 :=
  [UInt8.ofNat (v / 64 / 64 / 64 % 8 + 240)] ++ [UInt8.ofNat (v / 64 / 64 % 64 + 128)] ++
    [UInt8.ofNat (v / 64 % 64 + 128)] ++ [UInt8.ofNat (v % 64 + 128)]

theorem climbs_oneByte : Climbs oneByte 128 := climbs_lead (by decide)

theorem climbs_twoBytes : Climbs twoBytes 2048 := (climbs_lead (by decide)).digit

theorem climbs_threeBytes : Climbs threeBytes 65536 := (climbs_lead (by decide)).digit.digit

theorem climbs_fourBytes : Climbs fourBytes 2097152 := (climbs_lead (by decide)).digit.digit.digit

/-- The number of a character tells its form. -/
theorem utf8EncodeChar_cases (c : Char) :
    c.toNat < 128 ∧ String.utf8EncodeChar c = oneByte c.toNat ∨
      128 ≤ c.toNat ∧ c.toNat < 2048 ∧ String.utf8EncodeChar c = twoBytes c.toNat ∨
      2048 ≤ c.toNat ∧ c.toNat < 65536 ∧ String.utf8EncodeChar c = threeBytes c.toNat ∨
      65536 ≤ c.toNat ∧ c.toNat < 2097152 ∧ String.utf8EncodeChar c = fourBytes c.toNat := by
  have hbound : c.toNat < 55296 ∨ 57343 < c.toNat ∧ c.toNat < 1114112 := c.valid
  have hval : c.val.toNat = c.toNat := rfl
  unfold String.utf8EncodeChar
  simp only [hval]
  split
  next h => exact .inl ⟨by omega, by rw [oneByte, Nat.mod_eq_of_lt (by omega), Nat.add_zero]⟩
  split
  next => exact .inr (.inl ⟨by omega, by omega, rfl⟩)
  split
  next =>
    refine .inr (.inr (.inl ⟨by omega, by omega, ?_⟩))
    simp only [threeBytes, Nat.div_div_eq_div_mul]
    rfl
  next =>
    refine .inr (.inr (.inr ⟨by omega, by omega, ?_⟩))
    simp only [fourBytes, Nat.div_div_eq_div_mul]
    rfl

/-- Smaller characters have smaller bytes, whatever follows. -/
theorem utf8EncodeChar_lt {c d : Char} (h : c < d) (r s : List UInt8) :
    String.utf8EncodeChar c ++ r < String.utf8EncodeChar d ++ s := by
  have hlt : c.toNat < d.toNat := h
  -- a longer form has a larger lead byte
  have hlead : ∀ {a b : Nat} {x y : List UInt8}, a < b → b < 256 →
      UInt8.ofNat a :: x < UInt8.ofNat b :: y :=
    fun hab hb => List.cons_lt_cons_iff.mpr (.inl (ofNat_lt_ofNat hab hb))
  obtain ⟨hc, ec⟩ | ⟨hc, hc', ec⟩ | ⟨hc, hc', ec⟩ | ⟨hc, hc', ec⟩ := utf8EncodeChar_cases c <;>
    obtain ⟨hd, ed⟩ | ⟨hd, hd', ed⟩ | ⟨hd, hd', ed⟩ | ⟨hd, hd', ed⟩ := utf8EncodeChar_cases d <;>
    rw [ec, ed]
  all_goals first
    | omega
    | exact climbs_oneByte _ _ hlt hd r s
    | exact climbs_twoBytes _ _ hlt hd' r s
    | exact climbs_threeBytes _ _ hlt hd' r s
    | exact climbs_fourBytes _ _ hlt hd' r s
    | exact hlead (by omega) (by omega)

/-! ## Texts -/

theorem utf8EncodeChar_ne_nil (c : Char) : String.utf8EncodeChar c ≠ [] := by
  obtain ⟨_, h⟩ | ⟨_, _, h⟩ | ⟨_, _, h⟩ | ⟨_, _, h⟩ := utf8EncodeChar_cases c <;>
    rw [h] <;> exact List.cons_ne_nil _ _

theorem flatMap_utf8EncodeChar_lt {s t : List Char} (h : s < t) :
    s.flatMap String.utf8EncodeChar < t.flatMap String.utf8EncodeChar := by
  induction h with
  | nil =>
    rename_i c t
    obtain ⟨byte, bytes, hc⟩ := List.exists_cons_of_ne_nil (utf8EncodeChar_ne_nil c)
    rw [List.flatMap_cons, hc]
    exact .nil
  | cons _ ih =>
    rw [List.flatMap_cons, List.flatMap_cons]
    exact List.append_left_lt ih
  | rel hcd =>
    rw [List.flatMap_cons, List.flatMap_cons]
    exact utf8EncodeChar_lt hcd _ _

theorem ofText_lt {s t : String} (h : s < t) : ofText s < ofText t := by
  rw [ofText_eq_flatMap, ofText_eq_flatMap]
  exact flatMap_utf8EncodeChar_lt (String.lt_iff.mp h)

/-- Texts are ordered as their bytes are. -/
theorem ofText_le_iff {s t : String} : ofText s ≤ ofText t ↔ s ≤ t := by
  constructor
  · intro h hlt
    exact h (ofText_lt hlt)
  · intro h
    rcases Decidable.em (s < t) with hlt | hlt
    · exact List.le_of_lt (ofText_lt hlt)
    · rw [String.le_antisymm h hlt]
      exact List.le_refl _

end ByteKey

end Rollout
