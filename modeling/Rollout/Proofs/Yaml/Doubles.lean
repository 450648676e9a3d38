import Rollout.Proofs.Decimal.Exact
import Rollout.Proofs.Yaml.Portable

/-!
# Doubles that both formats round alike

The readers of both formats take the same decimal from a number that is written with a point or an
exponent: a significand and a power of ten (`readMagnitude_of_decimal?`).  JSON scales the rounded
significand by the rounded power of ten, YAML takes the nearest double.  Where significand and power
of ten are doubles themselves, JSON rounds once too, so such a number is portable
(`Numeral.Short.portable`).
-/

namespace Rollout

namespace Json

/-! ## The decimal that is written -/

theorem naturalOf_concat (digits : List Char) (c : Char) :
    naturalOf (digits ++ [c]) = 10 * naturalOf digits + naturalOf [c] := by
  simp [naturalOf, naturalIn]

theorem naturalOf_le_append (digits : List Char) : ∀ more : List Char,
    naturalOf digits ≤ naturalOf (digits ++ more)
  | [] => Nat.le_of_eq (by rw [List.append_nil])
  | c :: more => by
      have hconcat := naturalOf_concat digits c
      have hmore := naturalOf_le_append (digits ++ [c]) more
      rw [List.append_assoc, List.singleton_append] at hmore
      omega

/-- No digit is dropped of a number within 64 bits. -/
theorem takeDigits_naturalOf (digits : List Char) : ∀ {more : List Char},
    naturalOf (digits ++ more) < 2 ^ 64 →
      takeDigits (naturalOf digits) more = (naturalOf (digits ++ more), [])
  | [], _ => by rw [List.append_nil, takeDigits]
  | c :: more, hlt => by
      have hassoc : digits ++ c :: more = digits ++ [c] ++ more := by simp
      rw [hassoc] at hlt ⊢
      have hnext := naturalOf_le_append (digits ++ [c]) more
      rw [takeDigits, ← naturalOf_concat, if_pos (by omega)]
      exact takeDigits_naturalOf (digits ++ [c]) hlt

theorem takeDigits_zero {digits : List Char} (h : naturalOf digits < 2 ^ 64) :
    takeDigits 0 digits = (naturalOf digits, []) :=
  takeDigits_naturalOf [] h

theorem spanDigits_of_readFraction {cs digits rest : List Char}
    (h : readFraction cs = .ok (digits, rest)) : spanDigits cs = (digits, rest) := by
  unfold readFraction at h
  split at h
  next => cases h
  next =>
    split at h
    next => exact Except.ok.inj h
    next => cases h

/-- An exponent that ends the text is a whole number with a sign. -/
theorem signedNatural?_of_readExponent {cs : List Char} {n : Int}
    (h : readExponent cs = .ok (n, [])) : signedNatural? cs = some n := by
  rw [readExponent_eq] at h
  cases hfraction : readFraction (spanSign cs).2 with
  | error fault => rw [hfraction] at h; cases h
  | ok p =>
    obtain ⟨digits, behind⟩ := p
    rw [hfraction] at h
    obtain ⟨hn, rfl⟩ := Prod.mk.inj (Except.ok.inj h)
    obtain ⟨hdigits, hbehind⟩ := Prod.mk.inj (spanDigits_of_readFraction hfraction)
    obtain ⟨c, more, hcons, -⟩ := exists_digit_of_readFraction hfraction
    have hwhole := List.takeWhile_append_dropWhile (p := Char.isDigit) (l := (spanSign cs).2)
    rw [hdigits, hbehind, List.append_nil] at hwhole
    have hall : digits.all Char.isDigit = true := hdigits ▸ List.all_takeWhile
    unfold signedNatural?
    dsimp only at hn ⊢
    rw [← hwhole, hall, List.isEmpty_eq_false_iff.mpr (hcons ▸ List.cons_ne_nil c more), hn]
    rfl

/-- The decimal of digits, some of them behind the point, and of the exponent ahead. -/
def decimalBehind (digits : List Char) (places : Nat) (cs : List Char) : Option Decimal :=
  match cs with
  | [] => some ⟨naturalOf digits, 0 - places⟩
  | 'e' :: rest => (signedNatural? rest).map fun e => ⟨naturalOf digits, e - places⟩
  | 'E' :: rest => (signedNatural? rest).map fun e => ⟨naturalOf digits, e - places⟩
  | _ => none

theorem decimalBehind_of_readShift {cs : List Char} {shift : Int}
    (h : readShift cs = .ok (shift, [])) (digits : List Char) (places : Nat) :
    decimalBehind digits places cs = some ⟨naturalOf digits, shift - places⟩ := by
  unfold readShift at h
  split at h
  next => rw [decimalBehind, signedNatural?_of_readExponent h]; rfl
  next => rw [decimalBehind, signedNatural?_of_readExponent h]; rfl
  next =>
    obtain ⟨rfl, rfl⟩ := Prod.mk.inj (Except.ok.inj h)
    rfl

/-- The digits behind the point ahead and what follows them, no digits if there is no point. -/
def fractionAhead (cs : List Char) : List Char × List Char :=
  match cs with
  | '.' :: rest => spanDigits rest
  | _ => ([], cs)

theorem fractionAhead_of_ne {cs : List Char} (h : ∀ rest, cs ≠ '.' :: rest) :
    fractionAhead cs = ([], cs) := by
  unfold fractionAhead
  split
  next rest => exact (h rest rfl).elim
  next => rfl

theorem decimal?_eq {cs whole behind fraction rest : List Char}
    (hwhole : spanDigits cs = (whole, behind)) (hne : whole ≠ [])
    (hfraction : fractionAhead behind = (fraction, rest)) :
    decimal? cs = decimalBehind (whole ++ fraction) fraction.length rest := by
  have hdecimal : decimal? cs =
      if whole.isEmpty && (fractionAhead behind).1.isEmpty then none
      else decimalBehind (whole ++ (fractionAhead behind).1) (fractionAhead behind).1.length
        (fractionAhead behind).2 := by
    unfold decimal?
    rw [hwhole]
    rfl
  rw [hdecimal, hfraction, List.isEmpty_eq_false_iff.mpr hne]
  rfl

/-! ## Reading it from JSON -/

theorem scaledNumber_eq_ok {negative : Bool} {significand : Nat} {exponent : Int} {cs : List Char}
    {value : Number} (h : scaledNumber negative significand exponent cs = .ok (value, [])) :
    ∃ shift x, readShift cs = .ok (shift, []) ∧
      scaleByTen significand (exponent + shift) = some x ∧ value = signed negative x := by
  rw [scaledNumber_eq] at h
  obtain ⟨⟨shift, rest⟩, hshift, h⟩ := ok_of_bind h
  dsimp only at h
  split at h
  next x hx =>
    obtain ⟨rfl, rfl⟩ := Prod.mk.inj (Except.ok.inj h)
    exact ⟨shift, x, hshift, hx, rfl⟩
  next => cases h

/-- A number with a point or an exponent is its decimal, scaled. -/
theorem readMagnitude_of_decimal? {negative : Bool} {cs : List Char} {value : Number} {d : Decimal}
    (hread : readMagnitude negative cs = .ok (value, []))
    (hmarked : cs.all Char.isDigit = false) (hd : decimal? cs = some d)
    (hlt : d.significand < 2 ^ 64) :
    ∃ x, scaleByTen d.significand d.exponent = some x ∧ value = signed negative x := by
  obtain ⟨⟨hne, -⟩, hnumber⟩ := readMagnitude_eq_ok hread
  obtain ⟨whole, hwhole⟩ : ∃ whole, cs.takeWhile Char.isDigit = whole := ⟨_, rfl⟩
  obtain ⟨behind, hbehind⟩ : ∃ behind, cs.dropWhile Char.isDigit = behind := ⟨_, rfl⟩
  rw [hwhole] at hne
  rw [hwhole, hbehind] at hnumber
  have hspan : spanDigits cs = (whole, behind) := Prod.ext hwhole hbehind
  by_cases hpoint : ∃ ahead, behind = '.' :: ahead
  · obtain ⟨ahead, rfl⟩ := hpoint
    obtain ⟨⟨fraction, rest⟩, hfraction, hscaled⟩ := ok_of_bind hnumber
    obtain ⟨shift, x, hshift, hx, hvalue⟩ := scaledNumber_eq_ok hscaled
    rw [decimal?_eq hspan hne (spanDigits_of_readFraction hfraction),
      decimalBehind_of_readShift hshift] at hd
    obtain rfl := Option.some.inj hd
    have hle := naturalOf_le_append whole fraction
    dsimp only at hlt hx
    rw [takeDigits_zero (by omega), takeDigits_naturalOf whole hlt] at hx
    refine ⟨x, ?_, hvalue⟩
    rw [← hx]
    congr 1
    simp only [List.length_nil, Nat.sub_zero]
    omega
  · have hpoint : ∀ ahead, behind ≠ '.' :: ahead := fun ahead heq => hpoint ⟨ahead, heq⟩
    rw [numberBehind_of_ne hpoint] at hnumber
    split at hnumber
    next =>
      -- an integer is nothing but digits
      obtain ⟨-, rfl⟩ := Prod.mk.inj (Except.ok.inj hnumber)
      have hcs := List.takeWhile_append_dropWhile (p := Char.isDigit) (l := cs)
      rw [hbehind, List.append_nil] at hcs
      rw [← hcs, List.all_takeWhile] at hmarked
      cases hmarked
    next =>
      obtain ⟨shift, x, hshift, hx, hvalue⟩ := scaledNumber_eq_ok hnumber
      rw [decimal?_eq hspan hne (fractionAhead_of_ne hpoint), decimalBehind_of_readShift hshift,
        List.append_nil] at hd
      obtain rfl := Option.some.inj hd
      rw [takeDigits_zero hlt] at hx
      refine ⟨x, ?_, hvalue⟩
      rw [← hx]
      congr 1
      simp only [List.length_nil]
      omega

/-- Behind the sign of a numeral stands a number without sign. -/
theorem Numeral.spanSign_chars (numeral : Numeral) : ∃ c more,
    (spanSign numeral.chars).2 = c :: more ∧ c.isDigit = true ∧
      (∀ d ∈ c :: more, isNumeralChar d = true) ∧
        readMagnitude (spanSign numeral.chars).1 (c :: more) = .ok (numeral.value, []) := by
  obtain ⟨hbegins, hchars, -⟩ := numeral.reads_append
  have hreads := numeral.reads
  rcases hbegins with ⟨c, hc, hdigit⟩ | ⟨c, more, heq, hdigit⟩
  · obtain ⟨more, heq⟩ := List.head?_eq_some_iff.mp hc
    rw [heq] at hchars hreads ⊢
    rw [spanSign_of_isDigit hdigit]
    rw [readNumeral_of_isDigit hdigit] at hreads
    exact ⟨c, more, rfl, hdigit, hchars, hreads⟩
  · rw [heq] at hchars hreads ⊢
    exact ⟨c, more, rfl, hdigit, fun d hd => hchars d (List.mem_cons_of_mem _ hd), hreads⟩

end Json

/-! ## Reading it from YAML -/

namespace Yaml

theorem toLower_of_isDigit {c : Char} (h : c.isDigit = true) : c.toLower = c := by
  obtain ⟨-, hhigh⟩ := Char.isDigit_iff_toNat.mp h
  unfold Char.toLower
  refine dif_neg fun hupper => ?_
  have hlow : 'A'.toNat ≤ c.toNat := hupper.1
  have hletter : '9'.toNat < 'A'.toNat := by decide
  omega

/-- The words for what is no finite number begin with a letter. -/
theorem float?_of_decimal? {cs : List Char} {c : Char} {more : List Char}
    (hcs : (spanSign cs).2 = c :: more) (hc : c.isDigit = true) {d : Decimal}
    (hd : decimal? (c :: more) = some d) :
    float? cs = some (if (spanSign cs).1 then -d.toFloat else d.toFloat) := by
  have hword : ∀ {letter : Char} {word : List Char}, letter.isDigit = false →
      (c :: more).map Char.toLower ≠ letter :: word := by
    intro letter word hletter heq
    rw [List.map_cons, toLower_of_isDigit hc] at heq
    obtain ⟨rfl, -⟩ := List.cons.inj heq
    rw [hc] at hletter
    cases hletter
  have hinf : (c :: more).map Char.toLower ≠ "inf".toList := hword (by decide)
  have hinfinity : (c :: more).map Char.toLower ≠ "infinity".toList := hword (by decide)
  have hnan : (c :: more).map Char.toLower ≠ "nan".toList := hword (by decide)
  unfold float?
  dsimp only
  rw [hcs, decide_eq_false hinf, decide_eq_false hinfinity, if_neg hnan, hd]
  rfl

/-- The other words for that begin with a point. -/
theorem isSpecialFloat_of_beginsNumber {cs : List Char} (h : Json.BeginsNumber cs)
    (hmagnitude : Json.BeginsNumber (spanSign cs).2) : isSpecialFloat cs = false := by
  have hne := ofList_ne_of_beginsNumber h
  have hmagnitude := ofList_ne_of_beginsNumber hmagnitude
  simp [isSpecialFloat, hne ".nan" (by decide), hne ".NaN" (by decide), hne ".NAN" (by decide),
    hmagnitude ".inf" (by decide), hmagnitude ".Inf" (by decide), hmagnitude ".INF" (by decide)]

/-- A number with a point or an exponent is no integer. -/
theorem magnitude?_eq_none {cs : List Char} (hchars : ∀ c ∈ cs, Json.isNumeralChar c = true)
    (hmarked : cs.all Char.isDigit = false) : magnitude? cs = none := by
  obtain ⟨c, hc, hdigit⟩ := List.all_eq_false.mp hmarked
  rw [Bool.not_eq_true] at hdigit
  have hall : cs.all (isDigitOf 10) = false := by
    refine List.all_eq_false.mpr ⟨c, hc, ?_⟩
    have hchar := hchars c hc
    simp only [Json.isNumeralChar, hdigit, Bool.false_or, Bool.or_eq_true,
      decide_eq_true_eq] at hchar
    rcases hchar with (((rfl | rfl) | rfl) | rfl) | rfl <;> decide
  have hbase : ∀ {letter : Char} {digits : List Char}, Json.isNumeralChar letter = false →
      cs ≠ '0' :: letter :: digits := by
    rintro letter digits hletter rfl
    rw [hchars letter (by simp)] at hletter
    cases hletter
  unfold magnitude?
  split
  next => exact (hbase (by decide) rfl).elim
  next => exact (hbase (by decide) rfl).elim
  next => exact (hbase (by decide) rfl).elim
  next => simp [digits?, hall]

theorem hasLeadingZero_eq_false {cs : List Char} (hmarked : cs.all Char.isDigit = false) :
    hasLeadingZero cs = false := by
  rw [hasLeadingZero, hmarked, Bool.and_false]

end Yaml

/-! ## Short doubles -/

namespace Json

/-- A number with a point or an exponent of which the significand and the power of ten are doubles
themselves. -/
structure Numeral.Short (numeral : Numeral) : Prop where
  marked : (spanSign numeral.chars).2.all Char.isDigit = false
  few : ∃ d ∈ decimal? (spanSign numeral.chars).2,
    d.significand < 2 ^ 53 ∧ d.exponent.natAbs ≤ 22

instance : DecidablePred Numeral.Short := fun numeral =>
  decidable_of_iff ((spanSign numeral.chars).2.all Char.isDigit = false ∧
      ∃ d ∈ decimal? (spanSign numeral.chars).2, d.significand < 2 ^ 53 ∧ d.exponent.natAbs ≤ 22)
    ⟨fun h => ⟨h.1, h.2⟩, fun h => ⟨h.marked, h.few⟩⟩

/-- Both formats round a short double once. -/
theorem Numeral.Short.portable {numeral : Numeral} (h : numeral.Short) : numeral.Portable := by
  obtain ⟨hmarked, ⟨significand, exponent⟩, hdecimal, hsignificand, hexponent⟩ := h
  obtain ⟨c, more, hmagnitude, hdigit, hchars, hread⟩ := numeral.spanSign_chars
  rw [hmagnitude] at hmarked hdecimal
  dsimp only at hsignificand hexponent
  obtain ⟨x, hx, hvalue⟩ := readMagnitude_of_decimal? hread hmarked hdecimal
    (hsignificand.trans (by decide))
  rw [Double.scaleByTen_eq hsignificand hexponent] at hx
  obtain rfl := Option.some.inj hx
  have hbegins := numeral.reads_append.1
  have hinteger : Yaml.integer? numeral.chars = none := by
    unfold Yaml.integer?
    dsimp only
    rw [hmagnitude, Yaml.magnitude?_eq_none hchars hmarked]
    rfl
  have hspecial := Yaml.isSpecialFloat_of_beginsNumber hbegins
    (hmagnitude ▸ .inl ⟨c, rfl, hdigit⟩)
  have hfloat := Yaml.float?_of_decimal? hmagnitude hdigit hdecimal
  have hfinite := (Double.isMagnitude_toFloat hsignificand hexponent).isFinite
    (spanSign numeral.chars).1
  unfold Numeral.Portable Yaml.plainValue?
  rw [hvalue, Yaml.isNull_of_beginsNumber hbegins, Yaml.bool?_of_beginsNumber hbegins,
    if_neg Bool.false_ne_true]
  simp only [String.toList_ofList, hinteger, Option.map_none, hmagnitude,
    Yaml.hasLeadingZero_eq_false hmarked, Yaml.double?, hspecial, Yaml.finite?, hfloat,
    Option.filter_some, hfinite]
  rfl

example : (⟨"-2.5e-1".toList, .double (-0.25), by decide +kernel⟩ : Numeral).Portable :=
  Numeral.Short.portable (by decide +kernel)

end Json

end Rollout
