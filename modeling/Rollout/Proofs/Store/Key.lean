import Rollout.Store.Key

/-!
# What byte keys say

A key of the byte store is read back into its parts as long as the names in it are plain, free of
the separator.  Three facts carry this.  A scan takes exactly the keys that continue its start with
the separator (`ByteKey.inScan_iff`).  Deploy times, in twenty digits each, are ordered as bytes as
they are as numbers (`ByteKey.compare_ofTime`).  And the separators of a key tell where its names
end, so a scan for one name, or for an object and a target, meets no key of others
(`ByteKey.inScan_ofRecord`, `ByteKey.inScan_ofIndex`).
-/

namespace Rollout

/-- A name without the separator. -/
def Plain (name : String) : Prop := '\x00' ∉ name.toList

instance (name : String) : Decidable (Plain name) :=
  inferInstanceAs (Decidable ('\x00' ∉ name.toList))

namespace ByteKey

/-! ## Bytes of a text -/

theorem ofText_eq_flatMap (s : String) : ofText s = s.toList.flatMap String.utf8EncodeChar := by
  have h : s.toUTF8 = (s.toList.flatMap String.utf8EncodeChar).toByteArray :=
    String.utf8Encode_toList.symm
  rw [ofText, h]
  simp

theorem ofText_injective {s t : String} (h : ofText s = ofText t) : s = t := by
  refine String.toByteArray_inj.mp (ByteArray.ext ?_)
  exact Array.toList_inj.mp h

/-- Only the separator itself is encoded with its byte. -/
theorem separator_not_mem_utf8EncodeChar {c : Char} (hc : c ≠ '\x00') :
    separator ∉ String.utf8EncodeChar c := by
  have hbyte : ∀ {n : Nat}, separator = UInt8.ofNat n → n % 256 = 0 := by
    intro n h
    have := congrArg UInt8.toNat h
    rw [UInt8.toNat_ofNat'] at this
    exact this.symm
  have hpos : c.val.toNat ≠ 0 := by
    intro h
    exact hc (Char.ext (UInt32.toNat_inj.mp h))
  intro hmem
  unfold String.utf8EncodeChar at hmem
  dsimp only at hmem
  split at hmem
  next =>
    have h := hbyte (List.mem_singleton.mp hmem)
    omega
  split at hmem
  next =>
    simp only [List.mem_cons, List.not_mem_nil, or_false] at hmem
    rcases hmem with h | h <;> have := hbyte h <;> omega
  split at hmem
  next =>
    simp only [List.mem_cons, List.not_mem_nil, or_false] at hmem
    rcases hmem with h | h | h <;> have := hbyte h <;> omega
  next =>
    simp only [List.mem_cons, List.not_mem_nil, or_false] at hmem
    rcases hmem with h | h | h | h <;> have := hbyte h <;> omega

theorem separator_not_mem_ofText {s : String} (h : Plain s) : separator ∉ ofText s := by
  rw [ofText_eq_flatMap, List.mem_flatMap]
  rintro ⟨c, hc, hmem⟩
  refine separator_not_mem_utf8EncodeChar ?_ hmem
  rintro rfl
  exact h hc

/-! ## Scans -/

theorem compare_byte (a b : UInt8) : compare a b = compare a.toNat b.toNat := by
  show compareOfLessAndEq a b = compareOfLessAndEq a.toNat b.toNat
  simp only [compareOfLessAndEq, UInt8.lt_iff_toNat_lt, UInt8.toNat_inj]

/-- A common start does not matter to a comparison. -/
theorem compare_append (start a b : ByteKey) : compare (start ++ a) (start ++ b) = compare a b := by
  induction start with
  | nil => rfl
  | cons byte start ih =>
    have hself : compare byte byte = .eq := Std.ReflCmp.compare_self
    rw [List.cons_append, List.cons_append, List.compare_cons_cons, hself, ih]
    rfl

theorem inScan_cons_cons {a b : UInt8} {start key : ByteKey} :
    inScan (a :: start) (b :: key) = true ↔ b = a ∧ start.inScan key = true := by
  have hswap : compare b a = (compare a b).swap := Std.OrientedCmp.eq_swap
  simp only [inScan, List.cons_append, List.compare_cons_cons, hswap]
  cases h : compare a b with
  | lt =>
    have hne : b ≠ a := by
      rintro rfl
      simp at h
    simp [hne]
  | eq =>
    cases Std.LawfulEqCmp.eq_of_compare h
    simp
  | gt =>
    have hne : b ≠ a := by
      rintro rfl
      simp at h
    simp [hne]

/-- The start itself is the separator and what follows it. -/
theorem inScan_nil_cons {b : UInt8} {key : ByteKey} :
    inScan [] (b :: key) = true ↔ b = separator := by
  simp only [inScan, List.nil_append, List.compare_cons_cons]
  constructor
  · intro h
    obtain ⟨_, hend⟩ := Bool.and_eq_true_iff.mp h
    have hlt : (compare b scanEnd).then (compare key []) = .lt := eq_of_beq hend
    have hnil : compare key [] ≠ .lt := by
      cases key <;> simp
    cases hb : compare b scanEnd with
    | lt =>
      rw [compare_byte, Nat.compare_eq_lt] at hb
      exact UInt8.toNat_inj.mp (Nat.lt_one_iff.mp hb)
    | eq =>
      rw [hb] at hlt
      exact absurd hlt hnil
    | gt =>
      rw [hb] at hlt
      cases hlt
  · rintro rfl
    cases key <;> rfl

/-- A scan takes the keys that go on with the separator. -/
theorem inScan_iff {start key : ByteKey} :
    start.inScan key = true ↔ ∃ tail, key = start ++ separator :: tail := by
  induction start generalizing key with
  | nil =>
    cases key with
    | nil => simp [inScan]
    | cons b key => simp [inScan_nil_cons]
  | cons a start ih =>
    cases key with
    | nil => simp [inScan]
    | cons b key => simp [inScan_cons_cons, ih]

/-! ## Deploy times -/

/-- The byte of an ASCII character. -/
def byteOf (c : Char) : UInt8 := UInt8.ofNat c.toNat

theorem ofText_digits {digits : List Char} (h : ∀ c ∈ digits, c.isDigit = true) :
    ofText (String.ofList digits) = digits.map byteOf := by
  rw [ofText_eq_flatMap, String.toList_ofList]
  induction digits with
  | nil => rfl
  | cons c rest ih =>
    have hc : c.val.toNat ≤ 0x7f := by
      have := (Char.isDigit_iff_toNat.mp (h c List.mem_cons_self)).2
      exact Nat.le_trans this (by decide)
    rw [List.flatMap_cons, ih fun d hd => h d (List.mem_cons_of_mem _ hd)]
    unfold String.utf8EncodeChar
    rw [if_pos hc]
    rfl

theorem ofDigitChars_cons_zero (c : Char) (digits : List Char) :
    Nat.ofDigitChars 10 (c :: digits) 0 =
      10 ^ digits.length * (c.toNat - '0'.toNat) + Nat.ofDigitChars 10 digits 0 := by
  rw [Nat.ofDigitChars_cons, Nat.ofDigitChars_eq_ofDigitChars_zero, Nat.mul_zero, Nat.zero_add]

theorem ofDigitChars_lt {digits : List Char} (h : ∀ c ∈ digits, c.isDigit = true) :
    Nat.ofDigitChars 10 digits 0 < 10 ^ digits.length := by
  induction digits with
  | nil => decide
  | cons c rest ih =>
    have hrest := ih fun d hd => h d (List.mem_cons_of_mem _ hd)
    have hc : c.toNat - '0'.toNat ≤ 9 := by
      have h := (Char.isDigit_iff_toNat.mp (h c List.mem_cons_self)).2
      have hnine : '9'.toNat = '0'.toNat + 9 := rfl
      omega
    have hmul := Nat.mul_le_mul_left (10 ^ rest.length) hc
    rw [ofDigitChars_cons_zero, List.length_cons, Nat.pow_succ]
    omega

/-- Digits of one length are ordered as the numbers they write. -/
theorem compare_digits : ∀ {as bs : List Char}, (∀ c ∈ as, c.isDigit = true) →
    (∀ c ∈ bs, c.isDigit = true) → as.length = bs.length →
    compare (as.map byteOf) (bs.map byteOf) =
      compare (Nat.ofDigitChars 10 as 0) (Nat.ofDigitChars 10 bs 0)
  | [], [], _, _, _ => rfl
  | [], _ :: _, _, _, h => nomatch h
  | _ :: _, [], _, _, h => nomatch h
  | a :: as, b :: bs, ha, hb, h => by
      have hlength : as.length = bs.length := Nat.succ.inj h
      have hrest := compare_digits (fun c hc => ha c (List.mem_cons_of_mem _ hc))
        (fun c hc => hb c (List.mem_cons_of_mem _ hc)) hlength
      have hltA := ofDigitChars_lt fun c hc => ha c (List.mem_cons_of_mem _ hc)
      have hltB := ofDigitChars_lt fun c hc => hb c (List.mem_cons_of_mem _ hc)
      obtain ⟨hlowA, hhighA⟩ := Char.isDigit_iff_toNat.mp (ha a List.mem_cons_self)
      obtain ⟨hlowB, hhighB⟩ := Char.isDigit_iff_toNat.mp (hb b List.mem_cons_self)
      have hbyte : compare (byteOf a) (byteOf b) = compare a.toNat b.toNat := by
        have hnine : '9'.toNat < 256 := by decide
        rw [compare_byte, byteOf, byteOf, UInt8.toNat_ofNat', UInt8.toNat_ofNat',
          Nat.mod_eq_of_lt (by omega), Nat.mod_eq_of_lt (by omega)]
      rw [List.map_cons, List.map_cons, List.compare_cons_cons, hrest, hbyte,
        ofDigitChars_cons_zero, ofDigitChars_cons_zero, hlength]
      rw [hlength] at hltA
      -- The first digits decide unless they are equal.
      cases hab : compare a.toNat b.toNat with
      | lt =>
        have hlt := Nat.compare_eq_lt.mp hab
        have hmul := Nat.mul_le_mul_left (10 ^ bs.length)
          (show a.toNat - '0'.toNat + 1 ≤ b.toNat - '0'.toNat by omega)
        rw [Nat.mul_add_one] at hmul
        exact (Nat.compare_eq_lt.mpr (by omega)).symm
      | eq =>
        rw [Nat.compare_eq_eq.mp hab, Ordering.eq_then, Nat.compare_eq_ite_lt,
          Nat.compare_eq_ite_lt]
        simp only [Nat.add_lt_add_iff_left]
      | gt =>
        have hlt := Nat.compare_eq_gt.mp hab
        have hmul := Nat.mul_le_mul_left (10 ^ bs.length)
          (show b.toNat - '0'.toNat + 1 ≤ a.toNat - '0'.toNat by omega)
        rw [Nat.mul_add_one] at hmul
        exact (Nat.compare_eq_gt.mpr (by omega)).symm

theorem isDigit_of_mem_padded {width n : Nat} {c : Char} (hc : c ∈ Instant.padded width n) :
    c.isDigit = true := by
  rcases List.mem_append.mp hc with hzero | hdigit
  · rw [List.eq_of_mem_replicate hzero]
    decide
  · exact Nat.isDigit_of_mem_toDigits (by decide) (by decide) hdigit

theorem length_padded {width n : Nat} (hwidth : 0 < width) (hn : n < 10 ^ width) :
    (Instant.padded width n).length = width := by
  have h := (Nat.length_toDigits_le_iff (by decide) hwidth).mpr hn
  rw [Instant.padded, List.length_append, List.length_replicate]
  omega

theorem ofDigitChars_padded (width n : Nat) :
    Nat.ofDigitChars 10 (Instant.padded width n) 0 = n := by
  rw [Instant.padded, Nat.ofDigitChars_append, Nat.ofDigitChars_replicate_zero, Nat.mul_zero,
    Nat.ofDigitChars_ten_toDigits]

theorem time_lt (t : UInt64) : t.toNat < 10 ^ 20 :=
  Nat.lt_trans t.toNat_lt (by decide)

theorem ofTime_eq (t : UInt64) : ofTime t = (Instant.padded 20 t.toNat).map byteOf :=
  ofText_digits fun _ => isDigit_of_mem_padded

theorem length_ofTime (t : UInt64) : (ofTime t).length = 20 := by
  rw [ofTime_eq, List.length_map, length_padded (by decide) (time_lt t)]

/-- Deploy times are ordered as bytes as they are as numbers. -/
theorem compare_ofTime (s t : UInt64) : compare (ofTime s) (ofTime t) = compare s t := by
  have hnat : compare s t = compare s.toNat t.toNat := by
    show compareOfLessAndEq s t = compareOfLessAndEq s.toNat t.toNat
    simp only [compareOfLessAndEq, UInt64.lt_iff_toNat_lt, UInt64.toNat_inj]
  rw [ofTime_eq, ofTime_eq, compare_digits (fun _ => isDigit_of_mem_padded)
    (fun _ => isDigit_of_mem_padded), ofDigitChars_padded, ofDigitChars_padded, hnat]
  rw [length_padded (by decide) (time_lt s), length_padded (by decide) (time_lt t)]

theorem ofTime_injective {s t : UInt64} (h : ofTime s = ofTime t) : s = t := by
  have hself : compare (ofTime t) (ofTime t) = .eq := Std.ReflCmp.compare_self
  have hcompare := compare_ofTime s t
  rw [h, hself] at hcompare
  exact Std.LawfulEqCmp.eq_of_compare hcompare.symm

theorem separator_not_mem_ofTime (t : UInt64) : separator ∉ ofTime t := by
  rw [ofTime_eq, List.mem_map]
  rintro ⟨c, hc, hzero⟩
  obtain ⟨hlow, hhigh⟩ := Char.isDigit_iff_toNat.mp (isDigit_of_mem_padded hc)
  have hbyte := congrArg UInt8.toNat hzero
  rw [byteOf, UInt8.toNat_ofNat'] at hbyte
  have hbounds : 0 < '0'.toNat ∧ '9'.toNat < 256 := by decide
  have hsep : separator.toNat = 0 := rfl
  omega

/-! ## The parts of a key -/

/-- The first separators of two keys part them at the same place, or the one with a plain start
parts the other's start. -/
theorem append_separator_cases {a b x y : ByteKey} (ha : separator ∉ a)
    (h : a ++ separator :: x = b ++ separator :: y) :
    (a = b ∧ x = y) ∨ ∃ c, b = a ++ separator :: c ∧ x = c ++ separator :: y := by
  rcases List.append_eq_append_iff.mp h with ⟨c, hb, hx⟩ | ⟨c, ha', hy⟩
  · cases c with
    | nil =>
      rw [List.append_nil] at hb
      exact .inl ⟨hb.symm, (List.cons.inj hx).2⟩
    | cons d c =>
      obtain ⟨rfl, htail⟩ := List.cons.inj hx
      exact .inr ⟨c, hb, htail⟩
  · cases c with
    | nil =>
      rw [List.append_nil] at ha'
      exact .inl ⟨ha', (List.cons.inj hy).2.symm⟩
    | cons d c =>
      obtain ⟨rfl, _⟩ := List.cons.inj hy
      rw [ha'] at ha
      exact absurd (List.mem_append_right _ List.mem_cons_self) ha

/-- A key with one separator is parted at it. -/
theorem append_separator_inj {a b x y : ByteKey} (ha : separator ∉ a) (hx : separator ∉ x)
    (h : a ++ separator :: x = b ++ separator :: y) : a = b ∧ x = y := by
  rcases append_separator_cases ha h with hparts | ⟨c, _, hx'⟩
  · exact hparts
  · rw [hx'] at hx
    exact absurd (List.mem_append_right _ List.mem_cons_self) hx

/-- Record keys are told apart by their bytes, whatever their names: all times have one length. -/
theorem ofRecord_injective {k l : RecordKey} (h : ofRecord k = ofRecord l) : k = l := by
  obtain ⟨hname, htime⟩ := List.append_inj' h (by
    rw [List.length_cons, List.length_cons, length_ofTime, length_ofTime])
  cases k
  cases l
  cases ofText_injective hname
  cases ofTime_injective (List.cons.inj htime).2
  rfl

/-- The scan for a target takes the keys of its records. -/
theorem inScan_ofRecord {deployment : String} {k : RecordKey} (hplain : Plain k.deployment) :
    (ofText deployment).inScan (ofRecord k) = true ↔ k.deployment = deployment := by
  rw [inScan_iff, ofRecord]
  constructor
  · rintro ⟨tail, h⟩
    exact ofText_injective (append_separator_inj (separator_not_mem_ofText hplain)
      (separator_not_mem_ofTime _) h).1
  · rintro rfl
    exact ⟨_, rfl⟩

/-- Index keys of plain objects are told apart by their bytes. -/
theorem ofIndex_injective {object other : String} {k l : RecordKey} (hobject : Plain object)
    (hother : Plain other) (h : ofIndex object k = ofIndex other l) : object = other ∧ k = l := by
  rcases append_separator_cases (separator_not_mem_ofText hobject) h with ⟨ho, hkey⟩ | ⟨c, hc, _⟩
  · exact ⟨ofText_injective ho, ofRecord_injective hkey⟩
  · have hmem := separator_not_mem_ofText hother
    rw [hc] at hmem
    exact absurd (List.mem_append_right _ List.mem_cons_self) hmem

/-- The scan for an object and a target takes the keys of its records. -/
theorem inScan_ofIndex {object deployment name : String} {k : RecordKey} (hname : Plain name)
    (hplain : Plain k.deployment) :
    (ofObject object deployment).inScan (ofIndex name k) = true ↔
      name = object ∧ k.deployment = deployment := by
  rw [inScan_iff, ofIndex, ofRecord, ofObject]
  constructor
  · rintro ⟨tail, h⟩
    rw [List.append_assoc, List.cons_append] at h
    rcases append_separator_cases (separator_not_mem_ofText hname) h with ⟨ho, hkey⟩ | ⟨c, _, hkey⟩
    · exact ⟨ofText_injective ho, ofText_injective (append_separator_inj
        (separator_not_mem_ofText hplain) (separator_not_mem_ofTime _) hkey).1⟩
    · have htime := (append_separator_inj (separator_not_mem_ofText hplain)
        (separator_not_mem_ofTime _) hkey).2
      have hmem := separator_not_mem_ofTime k.time
      rw [htime] at hmem
      exact absurd (List.mem_append_right _ List.mem_cons_self) hmem
  · rintro ⟨rfl, rfl⟩
    refine ⟨ofTime k.time, ?_⟩
    rw [List.append_assoc]
    rfl

/-! ## The order of keys -/

/-- The records of one target are ordered by their bytes as by their keys. -/
theorem compare_ofRecord {k l : RecordKey} (h : k.deployment = l.deployment) :
    compare (ofRecord k) (ofRecord l) = compare k l := by
  have hself : compare l.deployment l.deployment = .eq := Std.ReflCmp.compare_self
  have hkey : compare k l = (compare k.deployment l.deployment).then (compare k.time l.time) := rfl
  rw [ofRecord, ofRecord, h, compare_append, List.compare_cons_cons, compare_ofTime, hkey, h, hself]
  rfl

/-- So are their index rows for one object. -/
theorem compare_ofIndex (object : String) {k l : RecordKey} (h : k.deployment = l.deployment) :
    compare (ofIndex object k) (ofIndex object l) = compare k l := by
  rw [ofIndex, ofIndex, compare_append, List.compare_cons_cons, compare_ofRecord h]
  rfl

/-- The byte store compares its keys in byte order. -/
theorem compare_eq_lt_iff {a b : ByteKey} : compare a b = .lt ↔ a < b := by
  induction a generalizing b with
  | nil => cases b <;> simp
  | cons x a ih =>
    cases b with
    | nil => simp
    | cons y b =>
      rw [List.compare_cons_cons, List.cons_lt_cons_iff, ← ih, Ordering.then_eq_lt,
        Std.LawfulEqCmp.compare_eq_iff_eq]
      exact or_congr_left Std.compare_eq_lt

/-- Whatever its name, a record has a key of its own, which lies in the scan for the name, and keys
of one name are in the order of their times. -/
theorem ofRecord_faithful (k l : RecordKey) (name : String) (s t : UInt64) :
    (ofRecord k = ofRecord l ↔ k = l) ∧
      (ofRecord ⟨name, s⟩ < ofRecord ⟨name, t⟩ ↔ s < t) ∧
      (ofText k.deployment).inScan (ofRecord k) = true := by
  refine ⟨⟨ofRecord_injective, congrArg ofRecord⟩, ?_, inScan_iff.mpr ⟨ofTime k.time, rfl⟩⟩
  have hcompare : compare (ofRecord ⟨name, s⟩) (ofRecord ⟨name, t⟩) = compare s t := by
    rw [ofRecord, ofRecord, compare_append, List.compare_cons_cons, compare_ofTime]
    rfl
  rw [← compare_eq_lt_iff, hcompare, Std.compare_eq_lt]

end ByteKey

end Rollout
