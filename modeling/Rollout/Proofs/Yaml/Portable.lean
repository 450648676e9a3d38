import Rollout.Proofs.Json.Spelled
import Rollout.Yaml.Resolution
import Rollout.Yaml.Scalar

/-!
# Spellings that both formats read alike

Nearly every JSON text is a YAML text of the same value.  `Portable` says of a spelling that none of
the exceptions occurs in it.

* In a string, some characters that JSON takes as they are must not stand in YAML at all, some break
  a line there, and no escape of YAML is a surrogate pair.
* Both formats read the integers of 64 bits alike (`Numeral.plainValue?_of_integer`).  What JSON
  takes for a double YAML may take for an integer, as negative zero, or for nothing, as an integer
  beyond 64 bits, and the readers round in different ways; so a double is portable if YAML has it
  too.  It has those of few digits and a small power of ten (`Numeral.Short.portable`).
* YAML takes a scalar for a key only if the colon follows on the same line and at no great distance.
* A tab must not stand where a block could begin, which is outside of the outermost brackets.

Whether a script is portable can be decided.
-/

namespace Rollout

open Json (BeginsNumber IsWhole)

namespace Json

/-- A piece that YAML takes for the same character: no line is broken by it and none of its
characters is forbidden, and its code is no pair of surrogates. -/
def Piece.Portable : Piece → Prop
  | plain c _ => Yaml.isAllowed c = true ∧ c ≠ '\u0085' ∧ Yaml.isBreak c = false
  | short _ _ _ => True
  | code escape _ _ => escape.length = 4

/-- An integer, or a double that is the same in YAML. -/
def Numeral.Portable (numeral : Numeral) : Prop :=
  match numeral.value with
  | .integer _ _ => True
  | .double x => Yaml.plainValue? (String.ofList numeral.chars) = some (.number (.double x))

/-- The colon stands on the line of its key, and so near that YAML takes what is before it for a
key. -/
structure SpelledKey.Portable (key : SpelledKey) : Prop where
  pieces : ∀ piece ∈ key.pieces, piece.Portable
  sameLine : '\n' ∉ key.behindKey.chars ∧ '\r' ∉ key.behindKey.chars
  near : (literal key.pieces).length + key.behindKey.chars.length ≤ 1024

mutual

/-- All strings, numbers and keys of a spelling are portable. -/
def Spelling.Portable : Spelling → Prop
  | .number numeral => numeral.Portable
  | .string pieces => ∀ piece ∈ pieces, piece.Portable
  | .array _ items => items.Portable
  | .object _ members => members.Portable
  | _ => True

/-- All strings, numbers and keys of items are portable. -/
def SpelledItems.Portable : SpelledItems → Prop
  | .last item _ => item.Portable
  | .more item _ _ items => item.Portable ∧ items.Portable

/-- All strings, numbers and keys of members are portable. -/
def SpelledMembers.Portable : SpelledMembers → Prop
  | .last key value _ => key.Portable ∧ value.Portable
  | .more key value _ _ members => (key.Portable ∧ value.Portable) ∧ members.Portable

end

/-- No tab stands where a block could begin: in front of the value, or on a line of its own behind
it. -/
structure Script.Portable (script : Script) : Prop where
  value : script.value.Portable
  before : '\t' ∉ script.before.chars
  after : '\t' ∉ script.after.chars.dropWhile fun c => !(c = '\n' || c = '\r')

/-! ### Deciding -/

instance : DecidablePred Piece.Portable
  | .plain c _ => inferInstanceAs (Decidable (_ ∧ c ≠ _ ∧ _))
  | .short _ _ _ => .isTrue trivial
  | .code escape _ _ => inferInstanceAs (Decidable (escape.length = 4))

instance : DecidablePred Numeral.Portable
  | ⟨_, .integer _ _, _⟩ => .isTrue trivial
  | ⟨_, .double _, _⟩ => inferInstanceAs (Decidable (_ = some (Json.number _)))

instance (key : SpelledKey) : Decidable key.Portable :=
  decidable_of_iff ((∀ piece ∈ key.pieces, piece.Portable) ∧
      ('\n' ∉ key.behindKey.chars ∧ '\r' ∉ key.behindKey.chars) ∧
      (literal key.pieces).length + key.behindKey.chars.length ≤ 1024)
    ⟨fun h => ⟨h.1, h.2.1, h.2.2⟩, fun h => ⟨h.pieces, h.sameLine, h.near⟩⟩

mutual

instance decidablePortable : ∀ v : Spelling, Decidable v.Portable
  | .null => .isTrue trivial
  | .bool _ => .isTrue trivial
  | .number numeral => inferInstanceAs (Decidable numeral.Portable)
  | .string pieces => inferInstanceAs (Decidable (∀ piece ∈ pieces, piece.Portable))
  | .emptyArray _ => .isTrue trivial
  | .array _ items => decidablePortableItems items
  | .emptyObject _ => .isTrue trivial
  | .object _ members => decidablePortableMembers members

instance decidablePortableItems : ∀ items : SpelledItems, Decidable items.Portable
  | .last item _ => decidablePortable item
  | .more item _ _ items =>
    have := decidablePortable item
    have := decidablePortableItems items
    inferInstanceAs (Decidable (item.Portable ∧ items.Portable))

instance decidablePortableMembers : ∀ members : SpelledMembers, Decidable members.Portable
  | .last key value _ =>
    have := decidablePortable value
    inferInstanceAs (Decidable (key.Portable ∧ value.Portable))
  | .more key value _ _ members =>
    have := decidablePortable value
    have := decidablePortableMembers members
    inferInstanceAs (Decidable ((key.Portable ∧ value.Portable) ∧ members.Portable))

end

instance (script : Script) : Decidable script.Portable :=
  decidable_of_iff (script.value.Portable ∧ '\t' ∉ script.before.chars ∧
      '\t' ∉ script.after.chars.dropWhile fun c => !(c = '\n' || c = '\r'))
    ⟨fun h => ⟨h.1, h.2.1, h.2.2⟩, fun h => ⟨h.value, h.before, h.after⟩⟩

end Json

/-! ## Integers -/

namespace Json

/-- Digits are taken one by one, as `naturalOf` reads them. -/
theorem takeDigits_eq_nil : ∀ {digits : List Char} {significand n : Nat},
    takeDigits significand digits = (n, []) →
      digits.foldl (fun n c => 10 * n + (digitValue? 10 c).getD 0) significand = n
  | [], _, _, h => (Prod.mk.inj h).1
  | c :: digits, significand, n, h => by
      have hc : naturalOf [c] = (digitValue? 10 c).getD 0 := by simp [naturalOf, naturalIn]
      rw [takeDigits, hc] at h
      rw [List.foldl_cons]
      split at h
      next => exact takeDigits_eq_nil h
      next => cases h

theorem ofInt?_eq_integer {k n : Int} {inRange : -2 ^ 63 ≤ n ∧ n < 2 ^ 64}
    (h : Number.ofInt? k = some (.integer n inRange)) : n = k := by
  unfold Number.ofInt? at h
  split at h
  next => exact (Number.integer.inj (Option.some.inj h)).symm
  next => cases h

/-- What reads as an integer is nothing but digits within 64 bits. -/
theorem numberBehind_eq_integer {negative : Bool} {whole cs rest : List Char} {n : Int}
    {inRange : -2 ^ 63 ≤ n ∧ n < 2 ^ 64}
    (h : numberBehind negative whole cs = .ok (.integer n inRange, rest)) :
    cs = rest ∧ n = if negative then -(naturalOf whole : Int) else naturalOf whole := by
  have hdouble : ∀ {significand : Nat} {exponent : Int} {cs : List Char},
      scaledNumber negative significand exponent cs ≠ .ok (.integer n inRange, rest) := by
    intro significand exponent cs hscaled
    rw [scaledNumber_eq] at hscaled
    obtain ⟨p, -, hscaled⟩ := ok_of_bind hscaled
    split at hscaled
    · cases hscaled
    · cases hscaled
  by_cases hpoint : ∃ behind, cs = '.' :: behind
  · obtain ⟨behind, rfl⟩ := hpoint
    obtain ⟨p, -, hscaled⟩ := ok_of_bind h
    exact (hdouble hscaled).elim
  rw [numberBehind_of_ne fun behind heq => hpoint ⟨behind, heq⟩] at h
  split at h
  next hinteger =>
    obtain ⟨hnumber, rfl⟩ := Prod.mk.inj (Except.ok.inj h)
    have hwhole : naturalOf whole = (takeDigits 0 whole).1 :=
      takeDigits_eq_nil (Prod.ext rfl (List.isEmpty_iff.mp hinteger.1))
    refine ⟨rfl, ?_⟩
    rw [hwhole]
    unfold integerNumber at hnumber
    split at hnumber
    next => cases hnumber
    next =>
      split at hnumber
      next heq => exact ofInt?_eq_integer (heq.trans (congrArg some hnumber))
      next => cases hnumber
  next => exact (hdouble h).elim

end Json

namespace Yaml

theorem isDigitOf_ten {c : Char} (h : c.isDigit = true) : isDigitOf 10 c = true := by
  obtain ⟨hlow, hhigh⟩ := Char.isDigit_iff_toNat.mp h
  have hle : '0' ≤ c ∧ c ≤ '9' := by
    rw [Char.le_def, Char.le_def, UInt32.le_iff_toNat_le, UInt32.le_iff_toNat_le]
    exact ⟨hlow, hhigh⟩
  have hlt : c.toNat - '0'.toNat < 10 := by
    have : '9'.toNat = '0'.toNat + 9 := rfl
    omega
  simp only [isDigitOf, digitValue?, if_pos hle, Option.filter_some, decide_eq_true hlt, if_true,
    Option.isSome_some]

/-- The digits of a JSON number are a decimal integer. -/
theorem magnitude?_of_isWhole {digits : List Char} (h : IsWhole digits)
    (hdigits : ∀ c ∈ digits, c.isDigit = true) : magnitude? digits = some (naturalOf digits) := by
  have hzero : hasLeadingZero digits = false := by
    match digits, h.2 with
    | [], _ => rfl
    | [c], _ => rfl
    | c :: d :: more, hsingle =>
      have hc : c ≠ '0' := by
        rintro rfl
        cases hsingle _ rfl
      simp [hasLeadingZero, hc]
  have hdecimal : digits? 10 digits = some (naturalOf digits) := by
    have hall : digits.all (isDigitOf 10) = true :=
      List.all_eq_true.mpr fun c hc => isDigitOf_ten (hdigits c hc)
    have hempty : digits.isEmpty = false := List.isEmpty_eq_false_iff.mpr h.1
    rw [digits?, hempty, hall]
    rfl
  unfold magnitude?
  split
  next => cases h.2 _ rfl
  next => cases h.2 _ rfl
  next => cases h.2 _ rfl
  next => rw [hzero, if_neg Bool.false_ne_true, hdecimal]

section

variable {cs : List Char} (h : BeginsNumber cs)
include h

/-- A text that begins like a number is no word that does not. -/
theorem ofList_ne_of_beginsNumber (word : String)
    (hword : (word.toList.head?.any fun d => d.isDigit || decide (d = '-')) = false) :
    String.ofList cs ≠ word := by
  rintro rfl
  rw [String.toList_ofList] at hword
  rcases h with ⟨c, hc, hdigit⟩ | ⟨c, more, rfl, -⟩
  · rw [show cs.head? = some c from hc, Option.any_some, hdigit] at hword
    cases hword
  · cases hword

theorem isNull_of_beginsNumber :
    ((String.ofList cs).isEmpty || isNull (String.ofList cs)) = false := by
  have hne := ofList_ne_of_beginsNumber h
  simp [isNull, hne "" (by decide), hne "~" (by decide), hne "null" (by decide),
    hne "Null" (by decide), hne "NULL" (by decide)]

theorem bool?_of_beginsNumber : bool? (String.ofList cs) = none := by
  have hne := ofList_ne_of_beginsNumber h
  simp [bool?, hne "true" (by decide), hne "True" (by decide), hne "TRUE" (by decide),
    hne "false" (by decide), hne "False" (by decide), hne "FALSE" (by decide)]

/-- No word for null or a boolean begins like a number. -/
theorem plainValue?_of_integer {n : Int} (hn : integer? cs = some n)
    (inRange : -2 ^ 63 ≤ n ∧ n < 2 ^ 64) :
    plainValue? (String.ofList cs) = some (.number (.integer n inRange)) := by
  have hvalue : integerValue n = .number (.integer n inRange) := by
    rw [integerValue, Number.ofInt?, dif_pos inRange]
  unfold plainValue?
  rw [isNull_of_beginsNumber h, if_neg Bool.false_ne_true]
  simp only [bool?_of_beginsNumber h, String.toList_ofList, hn, Option.map_some, hvalue]

end

end Yaml

namespace Json

/-- YAML reads every integer as JSON does. -/
theorem Numeral.plainValue?_of_integer {numeral : Numeral} {n : Int}
    {inRange : -2 ^ 63 ≤ n ∧ n < 2 ^ 64} (h : numeral.value = .integer n inRange) :
    Yaml.plainValue? (String.ofList numeral.chars) = some (.number (.integer n inRange)) := by
  have hbegins := numeral.reads_append.1
  have hreads := numeral.reads
  rw [h] at hreads
  have hmagnitude : ∀ {negative : Bool} {digits : List Char},
      readMagnitude negative digits = .ok (.integer n inRange, []) →
        IsWhole digits ∧ (∀ c ∈ digits, c.isDigit = true) ∧
          n = if negative then -(naturalOf digits : Int) else naturalOf digits := by
    intro negative digits hread
    obtain ⟨hwhole, hnumber⟩ := readMagnitude_eq_ok hread
    obtain ⟨hrest, hn⟩ := numberBehind_eq_integer hnumber
    have hdigits := List.takeWhile_append_dropWhile (p := Char.isDigit) (l := digits)
    rw [hrest, List.append_nil] at hdigits
    rw [hdigits] at hwhole hn
    exact ⟨hwhole, fun c hc => isDigit_of_mem_takeWhile digits c (hdigits.symm ▸ hc), hn⟩
  generalize numeral.chars = cs at hbegins hreads
  unfold readNumeral at hreads
  split at hreads
  next digits =>
    obtain ⟨hwhole, hdigits, hn⟩ := hmagnitude hreads
    refine Yaml.plainValue?_of_integer hbegins ?_ inRange
    simp [Yaml.integer?, spanSign, Yaml.magnitude?_of_isWhole hwhole hdigits, hn]
  next =>
    obtain ⟨hwhole, hdigits, hn⟩ := hmagnitude hreads
    obtain ⟨c, more, rfl⟩ := List.exists_cons_of_ne_nil hwhole.1
    have hc := hdigits c List.mem_cons_self
    refine Yaml.plainValue?_of_integer hbegins ?_ inRange
    simp [Yaml.integer?, spanSign_of_isDigit hc, Yaml.magnitude?_of_isWhole hwhole hdigits, hn]

/-- A portable numeral is the same number in YAML. -/
theorem Numeral.plainValue?_of_portable {numeral : Numeral} (h : numeral.Portable) :
    Yaml.plainValue? (String.ofList numeral.chars) = some (.number numeral.value) := by
  unfold Numeral.Portable at h
  split at h
  next n inRange hvalue => rw [hvalue, Numeral.plainValue?_of_integer hvalue]
  next x hvalue => rw [hvalue, h]

end Json

end Rollout
