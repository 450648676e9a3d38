import Rollout.Proofs.Json.Reading
import Rollout.Proofs.Plan.Grammar

/-!
# Where the words of a JSON text end

The readers of escapes and numbers take the characters of one word and leave what stands behind it.
What they read is told by these characters alone: the same word is read the same way in front of
anything else (`readUnicodeEscape_local`), or, as nothing closes a number, in front of anything that
cannot continue one (`readMagnitude_local`).
-/

namespace Rollout.Json

/-! ## Escapes -/

theorem readHex4_local {cs rest : List Char} {n : Nat} (h : readHex4 cs = .ok (n, rest)) :
    ∃ a b c d : Char, cs = a :: b :: c :: d :: rest ∧
      ∀ more, readHex4 (a :: b :: c :: d :: more) = .ok (n, more) := by
  unfold readHex4 at h
  split at h
  next a b c d behind =>
    split at h
    next _ _ _ _ ha hb hc hd =>
      obtain ⟨rfl, rfl⟩ := Prod.mk.inj (Except.ok.inj h)
      exact ⟨a, b, c, d, rfl, fun more => by simp only [readHex4, ha, hb, hc, hd]⟩
    next => cases h
  next => cases h

/-- The character of an escape, once its first unit is read. -/
def escapedChar (first : Nat) (rest : List Char) : Except SyntaxError (Parsed Char) :=
  if isTrailing first then .error .loneSurrogate
  else if !isLeading first then .ok (Char.ofNat first, rest)
  else
    match rest with
    | [] => .error .endInString
    | ['\\'] => .error .endInString
    | '\\' :: 'u' :: rest => do
      let (second, rest) ← readHex4 rest
      if isTrailing second then
        .ok (Char.ofNat (0x10000 + (first - 0xD800) * 0x400 + (second - 0xDC00)), rest)
      else .error .loneSurrogate
    | _ => .error .truncatedSurrogatePair

theorem readUnicodeEscape_eq (cs : List Char) :
    readUnicodeEscape cs = readHex4 cs >>= fun p => escapedChar p.1 p.2 := by
  unfold readUnicodeEscape
  cases readHex4 cs with
  | error fault => rfl
  | ok p =>
    obtain ⟨first, rest⟩ := p
    simp only [ok_bind, escapedChar]
    cases isTrailing first with
    | true => rfl
    | false =>
      cases isLeading first with
      | true => rfl
      | false => rfl

theorem escapedChar_local {first : Nat} {cs rest : List Char} {c : Char}
    (h : escapedChar first cs = .ok (c, rest)) :
    ∃ word, cs = word ++ rest ∧ ∀ more, escapedChar first (word ++ more) = .ok (c, more) := by
  unfold escapedChar at h ⊢
  split at h
  next => cases h
  next htrailing =>
  split at h
  next hleading =>
    obtain ⟨rfl, rfl⟩ := Prod.mk.inj (Except.ok.inj h)
    exact ⟨[], rfl, fun more => by rw [if_neg htrailing, if_pos hleading, List.nil_append]⟩
  next hleading =>
  split at h
  next => cases h
  next => cases h
  next behind =>
    obtain ⟨⟨second, behind⟩, hsecond, hpair⟩ := ok_of_bind h
    obtain ⟨a, b, c', d, rfl, hdigits⟩ := readHex4_local hsecond
    dsimp only at hpair
    split at hpair
    next htrails =>
      obtain ⟨rfl, rfl⟩ := Prod.mk.inj (Except.ok.inj hpair)
      refine ⟨['\\', 'u', a, b, c', d], rfl, fun more => ?_⟩
      rw [if_neg htrailing, if_neg hleading]
      show (readHex4 (a :: b :: c' :: d :: more) >>= _) = _
      rw [hdigits, ok_bind]
      exact if_pos htrails
    next => cases hpair
  next => cases h

/-- An escape is read the same way whatever stands behind it. -/
theorem readUnicodeEscape_local {cs rest : List Char} {c : Char}
    (h : readUnicodeEscape cs = .ok (c, rest)) :
    ∃ escape, cs = escape ++ rest ∧ ∀ more, readUnicodeEscape (escape ++ more) = .ok (c, more) := by
  rw [readUnicodeEscape_eq] at h
  obtain ⟨⟨first, behind⟩, hfirst, hchar⟩ := ok_of_bind h
  obtain ⟨a, b, c', d, rfl, hdigits⟩ := readHex4_local hfirst
  obtain ⟨word, rfl, hword⟩ := escapedChar_local hchar
  refine ⟨a :: b :: c' :: d :: word, rfl, fun more => ?_⟩
  rw [readUnicodeEscape_eq, List.cons_append, List.cons_append, List.cons_append, List.cons_append,
    hdigits, ok_bind]
  exact hword more

/-! ## Numbers -/

/-- The characters of numbers. -/
def isNumeralChar (c : Char) : Bool :=
  c.isDigit || c = '-' || c = '+' || c = '.' || c = 'e' || c = 'E'

theorem isNumeralChar_of_isDigit {c : Char} (h : c.isDigit = true) : isNumeralChar c = true := by
  simp [isNumeralChar, h]

/-- No digit stands ahead. -/
def DigitsEnd (rest : List Char) : Prop := ∀ c ∈ rest.head?, c.isDigit = false

theorem NumberEnds.digitsEnd {rest : List Char} (h : NumberEnds rest) : DigitsEnd rest :=
  fun c hc => (h c hc).1

section Digits

variable {digits rest : List Char} (hdigits : ∀ c ∈ digits, c.isDigit = true)
  (hends : DigitsEnd rest)
include hdigits hends

theorem takeWhile_isDigit_append : (digits ++ rest).takeWhile Char.isDigit = digits := by
  rw [List.takeWhile_append_of_pos hdigits]
  cases rest with
  | nil => simp
  | cons c rest => simp [hends c rfl]

theorem dropWhile_isDigit_append : (digits ++ rest).dropWhile Char.isDigit = rest := by
  rw [List.dropWhile_append_of_pos hdigits]
  cases rest with
  | nil => simp
  | cons c rest => simp [hends c rfl]

end Digits

theorem isDigit_of_mem_takeWhile (cs : List Char) :
    ∀ c ∈ cs.takeWhile Char.isDigit, c.isDigit = true :=
  List.all_eq_true.mp List.all_takeWhile

/-- Digits, of which there must be one, are read up to where they end. -/
theorem readFraction_local {cs digits rest : List Char} (h : readFraction cs = .ok (digits, rest)) :
    cs = digits ++ rest ∧ (∀ c ∈ digits, isNumeralChar c = true) ∧
      ∀ more, DigitsEnd more → readFraction (digits ++ more) = .ok (digits, more) := by
  unfold readFraction at h
  split at h
  next => cases h
  next c more =>
  split at h
  next hc =>
    obtain ⟨rfl, rfl⟩ := Prod.mk.inj (Except.ok.inj h)
    have hdigits := isDigit_of_mem_takeWhile (c :: more)
    refine ⟨List.takeWhile_append_dropWhile.symm,
      fun d hd => isNumeralChar_of_isDigit (hdigits d hd), fun more' hends => ?_⟩
    have htake := takeWhile_isDigit_append hdigits hends
    have hdrop := dropWhile_isDigit_append hdigits hends
    rw [List.takeWhile_cons_of_pos hc] at htake hdrop ⊢
    rw [List.cons_append] at htake hdrop ⊢
    rw [readFraction]
    simp only [hc, if_true, htake, hdrop]
  next => cases h

/-- The digits behind the sign of an exponent are read as those of a fraction. -/
theorem readExponent_eq (cs : List Char) :
    readExponent cs = (readFraction (spanSign cs).2).map fun p =>
      (if (spanSign cs).1 then -(naturalOf p.1 : Int) else naturalOf p.1, p.2) := by
  unfold readExponent readFraction
  obtain ⟨negative, behind⟩ := spanSign cs
  cases behind with
  | nil => rfl
  | cons c more =>
    dsimp only
    split
    · rfl
    · rfl

theorem spanSign_of_isDigit {c : Char} (h : c.isDigit = true) (cs : List Char) :
    spanSign (c :: cs) = (false, c :: cs) := by
  unfold spanSign
  split
  next heq => exact absurd h (by rw [(List.cons.inj heq).1]; decide)
  next heq => exact absurd h (by rw [(List.cons.inj heq).1]; decide)
  next => rfl

theorem exists_digit_of_readFraction {cs digits rest : List Char}
    (h : readFraction cs = .ok (digits, rest)) :
    ∃ c more, digits = c :: more ∧ c.isDigit = true := by
  unfold readFraction at h
  split at h
  next => cases h
  next c more =>
  split at h
  next hc =>
    obtain ⟨rfl, rfl⟩ := Prod.mk.inj (Except.ok.inj h)
    exact ⟨c, _, List.takeWhile_cons_of_pos hc, hc⟩
  next => cases h

/-- An exponent is read up to where its digits end. -/
theorem readExponent_local {cs rest : List Char} {n : Int} (h : readExponent cs = .ok (n, rest)) :
    ∃ word, cs = word ++ rest ∧ (∀ c ∈ word, isNumeralChar c = true) ∧
      ∀ more, DigitsEnd more → readExponent (word ++ more) = .ok (n, more) := by
  rw [readExponent_eq] at h
  cases hfraction : readFraction (spanSign cs).2 with
  | error fault => rw [hfraction] at h; cases h
  | ok p =>
    obtain ⟨digits, behind⟩ := p
    rw [hfraction] at h
    obtain ⟨rfl, rfl⟩ := Prod.mk.inj (Except.ok.inj h)
    obtain ⟨hcs, hchars, hmore⟩ := readFraction_local hfraction
    obtain ⟨c, digits, rfl, hc⟩ := exists_digit_of_readFraction hfraction
    have hsign : ∃ sign, cs = sign ++ (spanSign cs).2 ∧ (∀ c ∈ sign, isNumeralChar c = true) ∧
        ∀ more, spanSign (sign ++ c :: more) = ((spanSign cs).1, c :: more) := by
      unfold spanSign
      split
      · exact ⟨['-'], rfl, List.forall_mem_singleton.mpr rfl, fun more => rfl⟩
      · exact ⟨['+'], rfl, List.forall_mem_singleton.mpr rfl, fun more => rfl⟩
      · exact ⟨[], rfl, List.forall_mem_nil _, fun more => spanSign_of_isDigit hc more⟩
    obtain ⟨sign, hsigned, hsignChars, hspan⟩ := hsign
    refine ⟨sign ++ c :: digits, ?_, ?_, fun more hends => ?_⟩
    · rw [List.append_assoc, ← hcs]
      exact hsigned
    · exact fun d hd => (List.mem_append.mp hd).elim (hsignChars d) (hchars d)
    · rw [readExponent_eq, List.append_assoc, List.cons_append, hspan, ← List.cons_append,
        hmore more hends]
      rfl

/-- The exponent ahead, zero if there is none. -/
def readShift (cs : List Char) : Except SyntaxError (Parsed Int) :=
  match cs with
  | 'e' :: rest => readExponent rest
  | 'E' :: rest => readExponent rest
  | _ => .ok (0, cs)

/-- The double of a significand and a power of ten, to which an exponent may be added. -/
def scaledNumber (negative : Bool) (significand : Nat) (exponent : Int) (cs : List Char) :
    Except SyntaxError (Parsed Number) := do
  let (shift, rest) ← match cs with
    | 'e' :: rest => readExponent rest
    | 'E' :: rest => readExponent rest
    | _ => .ok (0, cs)
  match scaleByTen significand (exponent + shift) with
  | some x => .ok (signed negative x, rest)
  | none => .error .numberOutOfRange

/-- The number of which the digits before the point are read. -/
def numberBehind (negative : Bool) (whole cs : List Char) : Except SyntaxError (Parsed Number) :=
  let (significand, dropped) := takeDigits 0 whole
  match cs with
  | '.' :: rest => do
    let (fraction, rest) ← readFraction rest
    let (significand, excess) := takeDigits significand fraction
    scaledNumber negative significand (dropped.length - (fraction.length - excess.length : Nat))
      rest
  | 'e' :: _ => scaledNumber negative significand dropped.length cs
  | 'E' :: _ => scaledNumber negative significand dropped.length cs
  | _ =>
    if dropped.isEmpty then .ok (integerNumber negative significand, cs)
    else scaledNumber negative significand dropped.length cs

theorem scaledNumber_eq (negative : Bool) (significand : Nat) (exponent : Int) (cs : List Char) :
    scaledNumber negative significand exponent cs = readShift cs >>= fun p =>
      match scaleByTen significand (exponent + p.1) with
      | some x => .ok (signed negative x, p.2)
      | none => .error .numberOutOfRange := by
  unfold scaledNumber readShift
  split
  · rfl
  · rfl
  · rfl

/-- The digits before the point: there is one, and a leading zero is the only one. -/
def IsWhole (digits : List Char) : Prop :=
  digits ≠ [] ∧ ∀ more, digits = '0' :: more → more = []

theorem readMagnitude_append {digits cs : List Char} (hdigits : ∀ c ∈ digits, c.isDigit = true)
    (hends : DigitsEnd cs) (hwhole : IsWhole digits) (negative : Bool) :
    readMagnitude negative (digits ++ cs) = numberBehind negative digits cs := by
  obtain ⟨first, further, rfl⟩ := List.exists_cons_of_ne_nil hwhole.1
  have hfirst := hdigits first List.mem_cons_self
  unfold readMagnitude
  simp only [takeWhile_isDigit_append hdigits hends, dropWhile_isDigit_append hdigits hends]
  split
  next h => cases h
  next c more h =>
    obtain ⟨rfl, htail⟩ := List.cons.inj h
    rw [hwhole.2 further rfl] at htail
    rw [hends c (show c ∈ cs.head? by rw [show cs = c :: more from htail]; rfl), if_neg (by decide)]
    rfl
  next c more _ h =>
    rw [← (List.cons.inj h).1, hfirst, if_neg (by decide)]
    rfl

theorem readMagnitude_eq_ok {negative : Bool} {cs : List Char} {p : Parsed Number}
    (h : readMagnitude negative cs = .ok p) :
    IsWhole (cs.takeWhile Char.isDigit) ∧
      numberBehind negative (cs.takeWhile Char.isDigit) (cs.dropWhile Char.isDigit) = .ok p := by
  unfold readMagnitude at h
  split at h
  next => cases h
  next c more =>
    split at h
    next => cases h
    next hc =>
      refine ⟨?_, h⟩
      rw [List.takeWhile_cons_of_pos (by decide), List.takeWhile_cons_of_neg hc]
      exact ⟨List.cons_ne_nil _ _, fun _ heq => (List.cons.inj heq).2.symm⟩
  next c more hzero =>
    split at h
    next => cases h
    next hc =>
      have hc : c.isDigit = true := by simpa using hc
      refine ⟨⟨by rw [List.takeWhile_cons_of_pos hc]; exact List.cons_ne_nil _ _, ?_⟩, h⟩
      intro behind heq
      rw [List.takeWhile_cons_of_pos hc] at heq
      obtain ⟨rfl, rfl⟩ := List.cons.inj heq
      cases more with
      | nil => rfl
      | cons d more => exact (hzero d more rfl rfl).elim

/-- The letter of an exponent stands ahead. -/
def HasShift (cs : List Char) : Prop := cs.head? = some 'e' ∨ cs.head? = some 'E'

instance : DecidablePred HasShift := fun _ => inferInstanceAs (Decidable (_ ∨ _))

theorem not_hasShift {cs : List Char} (he : ∀ rest, cs ≠ 'e' :: rest)
    (hE : ∀ rest, cs ≠ 'E' :: rest) : ¬HasShift cs := by
  rintro (hhead | hhead)
  · obtain ⟨more, rfl⟩ := List.head?_eq_some_iff.mp hhead
    exact he more rfl
  · obtain ⟨more, rfl⟩ := List.head?_eq_some_iff.mp hhead
    exact hE more rfl

theorem readShift_of_not {cs : List Char} (h : ¬HasShift cs) : readShift cs = .ok (0, cs) := by
  unfold readShift
  split
  next => exact absurd (.inl rfl) h
  next => exact absurd (.inr rfl) h
  next => rfl

theorem NumberEnds.not_hasShift {cs : List Char} (h : NumberEnds cs) : ¬HasShift cs := by
  rintro (hhead | hhead)
  · exact (h 'e' hhead).2.2.1 rfl
  · exact (h 'E' hhead).2.2.2 rfl

/-- The exponent is the word ahead that its letter begins, if there is one. -/
theorem readShift_local {cs rest : List Char} {n : Int} (h : readShift cs = .ok (n, rest)) :
    ∃ word, cs = word ++ rest ∧ (∀ c ∈ word, isNumeralChar c = true) ∧
      (HasShift word ∨ word = [] ∧ ¬HasShift cs) ∧
      ∀ more, NumberEnds more → readShift (word ++ more) = .ok (n, more) := by
  unfold readShift at h
  split at h
  next cs =>
    obtain ⟨word, rfl, hchars, hmore⟩ := readExponent_local h
    exact ⟨'e' :: word, rfl, List.forall_mem_cons.mpr ⟨by decide, hchars⟩, .inl (.inl rfl),
      fun more hends => hmore more hends.digitsEnd⟩
  next cs =>
    obtain ⟨word, rfl, hchars, hmore⟩ := readExponent_local h
    exact ⟨'E' :: word, rfl, List.forall_mem_cons.mpr ⟨by decide, hchars⟩, .inl (.inr rfl),
      fun more hends => hmore more hends.digitsEnd⟩
  next hlower hupper =>
    obtain ⟨rfl, rfl⟩ := Prod.mk.inj (Except.ok.inj h)
    exact ⟨[], rfl, List.forall_mem_nil _, .inr ⟨rfl, not_hasShift hlower hupper⟩,
      fun more hends => readShift_of_not hends.not_hasShift⟩

theorem scaledNumber_local {negative : Bool} {significand : Nat} {exponent : Int}
    {cs rest : List Char} {n : Number}
    (h : scaledNumber negative significand exponent cs = .ok (n, rest)) :
    ∃ word, cs = word ++ rest ∧ (∀ c ∈ word, isNumeralChar c = true) ∧
      (HasShift word ∨ word = [] ∧ ¬HasShift cs) ∧
      ∀ more, NumberEnds more →
        scaledNumber negative significand exponent (word ++ more) = .ok (n, more) := by
  rw [scaledNumber_eq] at h
  obtain ⟨⟨shift, behind⟩, hshift, hscaled⟩ := ok_of_bind h
  dsimp only at hscaled
  split at hscaled
  next x hx =>
    obtain ⟨rfl, rfl⟩ := Prod.mk.inj (Except.ok.inj hscaled)
    obtain ⟨word, rfl, hchars, hhead, hmore⟩ := readShift_local hshift
    refine ⟨word, rfl, hchars, hhead, fun more hends => ?_⟩
    rw [scaledNumber_eq, hmore more hends, ok_bind]
    simp only [hx]
  next => cases hscaled

theorem HasShift.append {word : List Char} (h : HasShift word) (more : List Char) :
    HasShift (word ++ more) := by
  rcases h with hhead | hhead
  · exact .inl (by rw [List.head?_append, hhead]; rfl)
  · exact .inr (by rw [List.head?_append, hhead]; rfl)

/-- No digit stands in front of an exponent, nor where a number ends. -/
theorem digitsEnd_append {word cs more : List Char}
    (hword : HasShift word ∨ word = [] ∧ ¬HasShift cs) (hmore : NumberEnds more) :
    DigitsEnd (word ++ more) := by
  rcases hword with hshift | ⟨rfl, -⟩
  · intro c hc
    rcases hshift.append more with hhead | hhead
    · obtain rfl := Option.some.inj (hhead.symm.trans hc)
      decide
    · obtain rfl := Option.some.inj (hhead.symm.trans hc)
      decide
  · exact hmore.digitsEnd

/-- A number without point, the digits before its end being read. -/
theorem numberBehind_of_ne {negative : Bool} {whole cs : List Char} (h : ∀ rest, cs ≠ '.' :: rest) :
    numberBehind negative whole cs =
      if (takeDigits 0 whole).2.isEmpty ∧ ¬HasShift cs then
        .ok (integerNumber negative (takeDigits 0 whole).1, cs)
      else scaledNumber negative (takeDigits 0 whole).1 (takeDigits 0 whole).2.length cs := by
  unfold numberBehind
  dsimp only
  split
  next rest => exact (h rest rfl).elim
  next => rw [if_neg fun hplain => hplain.2 (.inl rfl)]
  next => rw [if_neg fun hplain => hplain.2 (.inr rfl)]
  next _ hlower hupper => simp only [not_hasShift hlower hupper, not_false_eq_true, and_true]

/-- A number is read the same way in front of everything that cannot continue it. -/
theorem numberBehind_local {negative : Bool} {whole cs rest : List Char} {n : Number}
    (h : numberBehind negative whole cs = .ok (n, rest)) :
    ∃ word, cs = word ++ rest ∧ (∀ c ∈ word, isNumeralChar c = true) ∧
      ∀ more, NumberEnds more → DigitsEnd (word ++ more) ∧
        numberBehind negative whole (word ++ more) = .ok (n, more) := by
  by_cases hpoint : ∃ behind, cs = '.' :: behind
  · obtain ⟨behind, rfl⟩ := hpoint
    obtain ⟨⟨fraction, behind⟩, hfraction, hscaled⟩ := ok_of_bind h
    obtain ⟨rfl, hdigits, hfractionMore⟩ := readFraction_local hfraction
    obtain ⟨word, rfl, hchars, hhead, hmore⟩ := scaledNumber_local hscaled
    refine ⟨'.' :: (fraction ++ word), by simp, ?_, fun more hends => ⟨by simp [DigitsEnd], ?_⟩⟩
    · refine List.forall_mem_cons.mpr ⟨by decide, fun c hc => ?_⟩
      exact (List.mem_append.mp hc).elim (hdigits c) (hchars c)
    · rw [List.cons_append, List.append_assoc]
      show (readFraction _ >>= _) = _
      rw [hfractionMore _ (digitsEnd_append hhead hends), ok_bind]
      exact hmore more hends
  · have hpoint' : ∀ rest, cs ≠ '.' :: rest := fun behind heq => hpoint ⟨behind, heq⟩
    have hplain : ∀ {more}, NumberEnds more → ∀ rest, more ≠ '.' :: rest := by
      rintro _ hends rest rfl
      exact (hends '.' rfl).2.1 rfl
    rw [numberBehind_of_ne hpoint'] at h
    split at h
    next hinteger =>
      obtain ⟨rfl, rfl⟩ := Prod.mk.inj (Except.ok.inj h)
      refine ⟨[], rfl, List.forall_mem_nil _, fun more hends => ⟨hends.digitsEnd, ?_⟩⟩
      rw [List.nil_append, numberBehind_of_ne (hplain hends),
        if_pos ⟨hinteger.1, hends.not_hasShift⟩]
    next hscaled =>
      obtain ⟨word, rfl, hchars, hhead, hmore⟩ := scaledNumber_local h
      refine ⟨word, rfl, hchars, fun more hends => ⟨digitsEnd_append hhead hends, ?_⟩⟩
      have hword : ∀ rest, word ++ more ≠ '.' :: rest := by
        rcases hhead with hshift | ⟨rfl, -⟩
        · intro rest heq
          rcases heq ▸ hshift.append more with hhead | hhead
          · cases hhead
          · cases hhead
        · exact hplain hends
      rw [numberBehind_of_ne hword, if_neg, hmore more hends]
      rintro ⟨hempty, hnone⟩
      rcases hhead with hshift | ⟨rfl, hnot⟩
      · exact hnone (hshift.append more)
      · exact hscaled ⟨hempty, hnot⟩

/-- A number begins with a digit, and is read the same way in front of everything that cannot
continue it. -/
theorem readMagnitude_local {negative : Bool} {cs rest : List Char} {n : Number}
    (h : readMagnitude negative cs = .ok (n, rest)) :
    ∃ c word, cs = c :: (word ++ rest) ∧ c.isDigit = true ∧ (∀ d ∈ word, isNumeralChar d = true) ∧
      ∀ more, NumberEnds more → readMagnitude negative (c :: (word ++ more)) = .ok (n, more) := by
  obtain ⟨hwhole, hnumber⟩ := readMagnitude_eq_ok h
  have hdigits := isDigit_of_mem_takeWhile cs
  obtain ⟨word, hbehind, hchars, hmore⟩ := numberBehind_local hnumber
  have hcs := List.takeWhile_append_dropWhile (p := Char.isDigit) (l := cs)
  rw [hbehind] at hcs
  generalize cs.takeWhile Char.isDigit = whole at hwhole hdigits hcs hmore
  obtain ⟨c, digits, rfl⟩ := List.exists_cons_of_ne_nil hwhole.1
  refine ⟨c, digits ++ word, by rw [← hcs, List.cons_append, List.append_assoc],
    hdigits c List.mem_cons_self, ?_, fun more hends => ?_⟩
  · intro d hd
    rcases List.mem_append.mp hd with hd | hd
    · exact isNumeralChar_of_isDigit (hdigits d (List.mem_cons_of_mem c hd))
    · exact hchars d hd
  · obtain ⟨hend, hread⟩ := hmore more hends
    rw [List.append_assoc, ← List.cons_append, readMagnitude_append hdigits hend hwhole, hread]

end Rollout.Json
