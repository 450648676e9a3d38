import Rollout.Proofs.Json.Layout

/-!
# Reading back what was printed

What the printer writes for a text or a natural number is read back as it was, whatever stands
behind it: a text ends with its quotation mark (`readString_escapeAll`), and a number where a
character follows that cannot continue it (`readMagnitude_toDigits`).  An object is read member by
member in any layout; `memberChars` is what stands behind its opening brace or behind one of its
members, and `aheadInObject_memberChars` takes the next member from it.
-/

namespace Rollout.Json

/-! ## Strings -/

theorem digitValue?_hexDigit : ∀ d < 16, digitValue? 16 (hexDigit d) = some d := by
  decide

/-- The escape of a control character is read as this character. -/
theorem readUnicodeEscape_hexDigits {n : Nat} (hn : n < 0x20) (rest : List Char) :
    readUnicodeEscape ('0' :: '0' :: hexDigit (n / 16) :: hexDigit (n % 16) :: rest) =
      .ok (Char.ofNat n, rest) := by
  have hzero : digitValue? 16 '0' = some 0 := by decide
  have hunit : ((0 * 16 + 0) * 16 + n / 16) * 16 + n % 16 = n := by omega
  have hread : readHex4 ('0' :: '0' :: hexDigit (n / 16) :: hexDigit (n % 16) :: rest) =
      .ok (n, rest) := by
    simp only [readHex4, hzero, digitValue?_hexDigit _ (show n / 16 < 16 by omega),
      digitValue?_hexDigit _ (show n % 16 < 16 by omega), hunit]
  have htrailing : isTrailing n = false := by
    simp [isTrailing]
    omega
  have hleading : isLeading n = false := by
    simp [isLeading]
    omega
  rw [readUnicodeEscape, hread]
  show (if isTrailing n then _ else _) = _
  simp only [htrailing, hleading]
  rfl

/-- A one-letter escape is read as the character it stands for. -/
theorem stringChars_shortEscape {e c : Char} (he : e ≠ 'u') (hc : shortEscape? e = some c)
    (x : Char) (fuel rest : List Char) :
    stringChars (x :: fuel) ('\\' :: e :: rest) =
      (stringChars fuel rest).map fun p => (c :: p.1, p.2) := by
  rw [stringChars]
  · simp only [hc]
    cases stringChars fuel rest <;> rfl
  · exact he

/-- One character is read from what it is escaped to. -/
theorem stringChars_escape (c x : Char) (fuel rest : List Char) :
    stringChars (x :: fuel) (escape c ++ rest) =
      (stringChars fuel rest).map fun p => (c :: p.1, p.2) := by
  unfold escape
  split
  next h =>
    subst h
    exact stringChars_shortEscape (by decide) rfl x fuel rest
  split
  next h =>
    subst h
    exact stringChars_shortEscape (by decide) rfl x fuel rest
  split
  next h =>
    subst h
    exact stringChars_shortEscape (by decide) rfl x fuel rest
  split
  next h =>
    subst h
    exact stringChars_shortEscape (by decide) rfl x fuel rest
  split
  next h =>
    subst h
    exact stringChars_shortEscape (by decide) rfl x fuel rest
  split
  next h =>
    subst h
    exact stringChars_shortEscape (by decide) rfl x fuel rest
  split
  next h =>
    subst h
    exact stringChars_shortEscape (by decide) rfl x fuel rest
  split
  next hcontrol =>
    have hunicode := readUnicodeEscape_hexDigits hcontrol rest
    rw [Char.ofNat_toNat] at hunicode
    show stringChars (x :: fuel) ('\\' :: 'u' :: '0' :: '0' :: hexDigit (c.toNat / 16) ::
      hexDigit (c.toNat % 16) :: rest) = _
    rw [stringChars]
    rw [hunicode]
    show (stringChars fuel rest >>= fun p => Except.ok (c :: p.1, p.2)) = _
    cases stringChars fuel rest <;> rfl
  next hquote hbackslash _ _ _ _ _ hcontrol =>
    show stringChars (x :: fuel) (c :: rest) = _
    rw [stringChars.eq_def]
    simp only [hquote, hbackslash, hcontrol, if_false]
    cases stringChars fuel rest <;> rfl

theorem stringChars_escapeAll (cs : List Char) : ∀ (fuel rest : List Char),
    cs.length < fuel.length → stringChars fuel (escapeAll cs ++ '"' :: rest) = .ok (cs, rest) := by
  induction cs with
  | nil =>
    intro fuel rest h
    cases fuel with
    | nil => exact absurd h (Nat.lt_irrefl _)
    | cons x fuel => simp [escapeAll, stringChars]
  | cons c cs ih =>
    intro fuel rest h
    cases fuel with
    | nil => exact absurd h (Nat.not_lt_zero _)
    | cons x fuel =>
      rw [escapeAll, List.append_assoc, stringChars_escape, ih fuel rest (Nat.lt_of_succ_lt_succ h)]
      rfl

theorem length_le_length_escapeAll (cs : List Char) : cs.length ≤ (escapeAll cs).length := by
  induction cs with
  | nil => exact Nat.le_refl _
  | cons c cs ih =>
    have hc : 1 ≤ (escape c).length := by
      unfold escape
      repeat' split
      all_goals simp
    rw [escapeAll, List.length_append, List.length_cons]
    omega

/-- A string literal is read back up to its closing quotation mark. -/
theorem readString_escapeAll (s : String) (rest : List Char) :
    readString (escapeAll s.toList ++ '"' :: rest) = .ok (s, rest) := by
  have hfuel : s.toList.length < (escapeAll s.toList ++ '"' :: rest).length := by
    have := length_le_length_escapeAll s.toList
    simp
    omega
  rw [readString, stringChars_escapeAll _ _ _ hfuel]
  show Except.ok (String.ofList s.toList, rest) = _
  rw [String.ofList_toList]

/-! ## Natural numbers -/

/-- Nothing that could continue a number. -/
def NumberEnds (rest : List Char) : Prop :=
  ∀ c ∈ rest.head?, c.isDigit = false ∧ c ≠ '.' ∧ c ≠ 'e' ∧ c ≠ 'E'

theorem isBlank_of_isDigit {c : Char} (hc : c.isDigit = true) : isBlank c = false := by
  have hne : ∀ b : Char, b.isDigit = false → c ≠ b := by
    rintro b hb rfl
    rw [hb] at hc
    cases hc
  simp [isBlank, hne ' ' (by decide), hne '\t' (by decide), hne '\n' (by decide),
    hne '\r' (by decide)]

theorem naturalOf_singleton {c : Char} (h : c.isDigit = true) :
    naturalOf [c] = c.toNat - '0'.toNat := by
  obtain ⟨hlow, hhigh⟩ := Char.isDigit_iff_toNat.mp h
  have hle : '0' ≤ c ∧ c ≤ '9' := by
    rw [Char.le_def, Char.le_def, UInt32.le_iff_toNat_le, UInt32.le_iff_toNat_le]
    exact ⟨hlow, hhigh⟩
  have hlt : c.toNat - '0'.toNat < 10 := by
    have : '9'.toNat = '0'.toNat + 9 := rfl
    omega
  have hvalue : digitValue? 10 c = some (c.toNat - '0'.toNat) := by
    simp only [digitValue?, if_pos hle, Option.filter_some, decide_eq_true hlt, if_true]
  simp only [naturalOf, naturalIn, List.foldl_cons, List.foldl_nil, hvalue, Option.getD_some,
    Nat.mul_zero, Nat.zero_add]

/-- Digits that stay within 64 bits are all taken. -/
theorem takeDigits_of_lt : ∀ {digits : List Char} {significand : Nat},
    (∀ c ∈ digits, c.isDigit = true) → Nat.ofDigitChars 10 digits significand < 2 ^ 64 →
    takeDigits significand digits = (Nat.ofDigitChars 10 digits significand, [])
  | [], significand, _, _ => rfl
  | c :: rest, significand, hdigits, hlt => by
      have hc := naturalOf_singleton (hdigits c List.mem_cons_self)
      rw [Nat.ofDigitChars_cons] at hlt ⊢
      have hnext : 10 * significand + (c.toNat - '0'.toNat) < 2 ^ 64 := by
        rw [Nat.ofDigitChars_eq_ofDigitChars_zero] at hlt
        have hpos : 0 < 10 ^ rest.length := Nat.pow_pos (by decide)
        have hle := Nat.le_mul_of_pos_left (10 * significand + (c.toNat - '0'.toNat)) hpos
        omega
      simp only [takeDigits, hc, if_pos hnext]
      exact takeDigits_of_lt (fun d hd => hdigits d (List.mem_cons_of_mem _ hd)) hlt

/-- Only zero is written with a leading zero. -/
theorem toDigits_eq_zero_cons : ∀ {n : Nat} {more : List Char},
    Nat.toDigits 10 n = '0' :: more → more = [] := by
  intro n
  induction n using Nat.strongRecOn with
  | ind n ih =>
    intro more h
    rw [Nat.toDigits_eq_if (by decide)] at h
    split at h
    next => exact (List.cons.inj h).2.symm
    next hten =>
      cases hhead : Nat.toDigits 10 (n / 10) with
      | nil => exact absurd hhead Nat.toDigits_ne_nil
      | cons d init =>
        rw [hhead, List.cons_append] at h
        rw [(List.cons.inj h).1] at hhead
        rw [ih (n / 10) (by omega) hhead] at hhead
        have hzero := congrArg (Nat.ofDigitChars 10 · 0) hhead
        simp [Nat.ofDigitChars_cons] at hzero
        omega

theorem spanned_of_ends {digits rest : List Char}
    (hdigits : ∀ c ∈ digits, c.isDigit = true) (hends : NumberEnds rest) :
    (digits ++ rest).takeWhile Char.isDigit = digits ∧
      (digits ++ rest).dropWhile Char.isDigit = rest := by
  rw [List.takeWhile_append_of_pos hdigits, List.dropWhile_append_of_pos hdigits]
  cases rest with
  | nil => simp
  | cons c rest => simp [(hends c rfl).1]

/-- A natural number of at most 64 bits is read back up to where it ends. -/
theorem readMagnitude_toDigits (negative : Bool) {n : Nat} (hn : n < 2 ^ 64) {rest : List Char}
    (hends : NumberEnds rest) :
    readMagnitude negative (Nat.toDigits 10 n ++ rest) = .ok (integerNumber negative n, rest) := by
  have hdigits : ∀ c ∈ Nat.toDigits 10 n, c.isDigit = true := fun c hc =>
    Nat.isDigit_of_mem_toDigits (by decide) (by decide) hc
  obtain ⟨htake, hdrop⟩ := spanned_of_ends hdigits hends
  have hvalue : takeDigits 0 (Nat.toDigits 10 n) = (n, []) := by
    have h := Nat.ofDigitChars_ten_toDigits (n := n)
    rw [takeDigits_of_lt hdigits (h.symm ▸ hn), h]
  have hfirst : ∀ {c more}, Nat.toDigits 10 n ++ rest = c :: more → c.isDigit = true := by
    intro c more h
    cases hd : Nat.toDigits 10 n with
    | nil => exact absurd hd Nat.toDigits_ne_nil
    | cons d init =>
      rw [hd, List.cons_append] at h
      exact (List.cons.inj h).1 ▸ hdigits d (hd ▸ List.mem_cons_self)
  have hzero : ∀ {c more}, Nat.toDigits 10 n ++ rest = '0' :: c :: more → c.isDigit = false := by
    intro c more h
    cases hd : Nat.toDigits 10 n with
    | nil => exact absurd hd Nat.toDigits_ne_nil
    | cons d init =>
      rw [hd, List.cons_append] at h
      obtain ⟨rfl, htail⟩ := List.cons.inj h
      rw [toDigits_eq_zero_cons hd, List.nil_append] at htail
      exact (hends c (by rw [htail]; rfl)).1
  unfold readMagnitude
  simp only [htake, hdrop, hvalue]
  clear hdigits htake hdrop hvalue
  split
  next h => exact absurd (List.append_eq_nil_iff.mp h).1 Nat.toDigits_ne_nil
  next c more h =>
    rw [hzero h, if_neg (by decide)]
    split
    next => exact absurd rfl (hends '.' rfl).2.1
    next => exact absurd rfl (hends 'e' rfl).2.2.1
    next => exact absurd rfl (hends 'E' rfl).2.2.2
    next => rfl
  next c more _ h =>
    rw [hfirst h, if_neg (by decide)]
    split
    next => exact absurd rfl (hends '.' rfl).2.1
    next => exact absurd rfl (hends 'e' rfl).2.2.1
    next => exact absurd rfl (hends 'E' rfl).2.2.2
    next => rfl

/-! ## Members -/

section Members

variable (l : Layout) (level : Nat)

/-- The members ahead, the first of an object or further ones, up to the closing brace. -/
def memberChars : (first : Bool) → List (String × Json) → List Char
  | true, [] => ['}']
  | true, (key, j) :: rest =>
    l.gap (level + 1) ++ (quote key ++ ':' :: (l.behindColon ++
      (j.laidOut l (level + 1) ++ laidOutMembers l level rest)))
  | false, members => laidOutMembers l level members

theorem laidOut_object (members : List (String × Json)) :
    (Json.object members).laidOut l level = '{' :: memberChars l level true members := by
  cases members <;> rfl

theorem aheadInObject_end (first : Bool) (rest : List Char) :
    aheadInObject first (memberChars l level first [] ++ rest) = .ok (.closed rest) := by
  cases first with
  | true => rfl
  | false =>
    have hskip : skipBlanks (memberChars l level false [] ++ rest) = '}' :: rest := by
      rw [memberChars, laidOutMembers, List.append_assoc, skipBlanks_append (l.allBlank_gap level)]
      rfl
    rw [aheadInObject, hskip]
    rfl

theorem aheadInObject_comma {cs keyed : List Char} (h : skipBlanks cs = '"' :: keyed) :
    aheadInObject false (',' :: cs) = .ok (.another keyed) := by
  have hcomma : skipBlanks (',' :: cs) = ',' :: cs := rfl
  rw [aheadInObject, hcomma]
  simp [h]

/-- The next member: its key behind the quotation mark, the colon, its value and what follows. -/
theorem aheadInObject_memberChars (first : Bool) (key : String) (j : Json)
    (members : List (String × Json)) (rest : List Char) :
    aheadInObject first (memberChars l level first ((key, j) :: members) ++ rest) =
      .ok (.another (escapeAll key.toList ++ '"' :: ':' :: (l.behindColon ++
        (j.laidOut l (level + 1) ++ (memberChars l level false members ++ rest))))) := by
  have hgap : ∀ cs, skipBlanks (l.gap (level + 1) ++ '"' :: cs) = '"' :: cs := fun cs =>
    skipBlanks_append (l.allBlank_gap (level + 1)) _
  have hrest : memberChars l level false members = laidOutMembers l level members := rfl
  rw [hrest]
  cases first with
  | true =>
    have hchars : memberChars l level true ((key, j) :: members) ++ rest =
        l.gap (level + 1) ++ '"' :: (escapeAll key.toList ++ '"' :: ':' :: (l.behindColon ++
          (j.laidOut l (level + 1) ++ (laidOutMembers l level members ++ rest)))) := by
      simp [memberChars, quote]
    rw [hchars, aheadInObject, hgap]
    rfl
  | false =>
    have hchars : memberChars l level false ((key, j) :: members) ++ rest =
        ',' :: (l.gap (level + 1) ++ '"' :: (escapeAll key.toList ++ '"' :: ':' ::
          (l.behindColon ++
            (j.laidOut l (level + 1) ++ (laidOutMembers l level members ++ rest))))) := by
      simp [memberChars, laidOutMembers, quote]
    rw [hchars, aheadInObject_comma (hgap _)]

/-- The text of members is longer than their list. -/
theorem length_lt_length_memberChars (first : Bool) (members : List (String × Json)) :
    members.length < (memberChars l level first members).length := by
  have hfurther : ∀ members : List (String × Json),
      members.length < (laidOutMembers l level members).length := by
    intro members
    induction members with
    | nil => simp [laidOutMembers]
    | cons m members ih =>
      simp only [laidOutMembers, List.length_cons, List.length_append]
      omega
  cases first with
  | false => exact hfurther members
  | true =>
    cases members with
    | nil => exact Nat.one_pos
    | cons m members =>
      have h := hfurther members
      simp only [memberChars, List.length_cons, List.length_append]
      omega

/-- A number ends in front of a blank. -/
theorem numberEnds_cons_of_isBlank {c : Char} (hc : isBlank c = true) (cs : List Char) :
    NumberEnds (c :: cs) := by
  have hblank : c = ' ' ∨ c = '\t' ∨ c = '\n' ∨ c = '\r' := by simpa [isBlank, or_assoc] using hc
  intro d hd
  obtain rfl := Option.some.inj hd
  rcases hblank with rfl | rfl | rfl | rfl <;> decide

/-- A number before further members or the end of an object has ended. -/
theorem numberEnds_memberChars (members : List (String × Json)) (rest : List Char) :
    NumberEnds (memberChars l level false members ++ rest) := by
  cases members with
  | cons m members => exact fun c hc => Option.some.inj hc ▸ by decide
  | nil =>
    have hblank := l.allBlank_gap level
    rw [memberChars, laidOutMembers]
    cases hgap : l.gap level with
    | nil => exact fun c hc => Option.some.inj hc ▸ by decide
    | cons c blanks =>
      rw [hgap] at hblank
      exact numberEnds_cons_of_isBlank (hblank c List.mem_cons_self) _

end Members

end Rollout.Json
