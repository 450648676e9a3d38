import Rollout.Proofs.Json.RoundTrip
import Rollout.Proofs.Json.Words

/-!
# Spellings of JSON texts

A document can be written in many ways: with blanks between any two words, with escapes where none
is needed, with numbers in several notations.  A `Spelling` is one of them, production by production
of the grammar; its leaves carry the character or the number that they stand for.  `Spelling.chars`
is its text and `Spelling.document` what the text says.

A text that reads is a spelling (`exists_spelling`), and the reader takes a spelling for its
document, unless the document is nested too deeply (`readValue_spelling`).
-/

namespace Rollout.Json

/-- Blanks between the words of a text. -/
structure Blanks where
  chars : List Char
  allBlank : AllBlank chars

instance : DecidablePred AllBlank := fun cs =>
  decidable_of_iff (cs.all isBlank = true) List.all_eq_true

/-! ## Strings -/

/-- A character inside a string literal, and how it is written there. -/
inductive Piece where
  | plain (c : Char) (isPlain : c ≠ '"' ∧ c ≠ '\\' ∧ 0x20 ≤ c.toNat)
  /-- A backslash and a letter. -/
  | short (letter c : Char) (stands : shortEscape? letter = some c)
  /-- What stands behind `\u`: four digits, or the two units of a surrogate pair. -/
  | code (escape : List Char) (c : Char) (stands : readUnicodeEscape escape = .ok (c, []))

namespace Piece

/-- The character that a piece stands for. -/
def value : Piece → Char
  | plain c _ => c
  | short _ c _ => c
  | code _ c _ => c

/-- How a piece is written. -/
def chars : Piece → List Char
  | plain c _ => [c]
  | short letter _ _ => ['\\', letter]
  | code escape _ _ => '\\' :: 'u' :: escape

/-- One piece is read from how it is written. -/
theorem stringChars_append (piece : Piece) (x : Char) (fuel rest : List Char) :
    stringChars (x :: fuel) (piece.chars ++ rest) =
      (stringChars fuel rest).map fun p => (piece.value :: p.1, p.2) := by
  cases piece with
  | plain c isPlain =>
    show stringChars (x :: fuel) (c :: rest) = _
    rw [stringChars.eq_def]
    simp only [isPlain.1, isPlain.2.1, Nat.not_lt.mpr isPlain.2.2, if_false]
    cases stringChars fuel rest <;> rfl
  | short letter c stands =>
    refine stringChars_shortEscape ?_ stands x fuel rest
    rintro rfl
    cases stands
  | code escape c stands =>
    obtain ⟨word, hword, hread⟩ := readUnicodeEscape_local stands
    rw [List.append_nil] at hword
    subst hword
    show stringChars (x :: fuel) ('\\' :: 'u' :: (escape ++ rest)) = _
    rw [stringChars, hread rest]
    show (stringChars fuel rest >>= fun p => Except.ok (c :: p.1, p.2)) = _
    cases stringChars fuel rest <;> rfl

theorem length_chars_pos (piece : Piece) : 0 < piece.chars.length := by
  cases piece <;> simp [chars]

end Piece

/-- How pieces are written. -/
def piecesChars (pieces : List Piece) : List Char := pieces.flatMap Piece.chars

/-- The text that pieces stand for. -/
def piecesText (pieces : List Piece) : String := String.ofList (pieces.map Piece.value)

/-- A string literal. -/
def literal (pieces : List Piece) : List Char := '"' :: (piecesChars pieces ++ ['"'])

theorem length_le_length_piecesChars (pieces : List Piece) :
    pieces.length ≤ (piecesChars pieces).length := by
  induction pieces with
  | nil => exact Nat.le_refl _
  | cons piece pieces ih =>
    have hpos := piece.length_chars_pos
    rw [piecesChars, List.flatMap_cons, List.length_append, List.length_cons]
    rw [piecesChars] at ih
    omega

theorem stringChars_pieces (pieces : List Piece) : ∀ (fuel rest : List Char),
    pieces.length < fuel.length →
      stringChars fuel (piecesChars pieces ++ '"' :: rest) =
        .ok (pieces.map Piece.value, rest) := by
  induction pieces with
  | nil =>
    intro fuel rest h
    cases fuel with
    | nil => exact absurd h (Nat.lt_irrefl _)
    | cons x fuel => simp [piecesChars, stringChars]
  | cons piece pieces ih =>
    intro fuel rest h
    cases fuel with
    | nil => exact absurd h (Nat.not_lt_zero _)
    | cons x fuel =>
      rw [piecesChars, List.flatMap_cons, List.append_assoc, Piece.stringChars_append,
        ← piecesChars, ih fuel rest (Nat.lt_of_succ_lt_succ h)]
      rfl

/-- A string literal is read up to its closing quotation mark. -/
theorem readString_pieces (pieces : List Piece) (rest : List Char) :
    readString (piecesChars pieces ++ '"' :: rest) = .ok (piecesText pieces, rest) := by
  have hfuel : pieces.length < (piecesChars pieces ++ '"' :: rest).length := by
    have := length_le_length_piecesChars pieces
    simp only [List.length_append, List.length_cons]
    omega
  rw [readString, stringChars_pieces _ _ _ hfuel]
  rfl

/-- What reads as characters of a string is made of pieces. -/
theorem exists_pieces : ∀ {fuel cs chars rest : List Char},
    stringChars fuel cs = .ok (chars, rest) →
      ∃ pieces, cs = piecesChars pieces ++ '"' :: rest ∧ pieces.map Piece.value = chars := by
  intro fuel
  induction fuel with
  | nil => intro cs chars rest h; cases h
  | cons x fuel ih =>
    intro cs chars rest h
    have hpiece : ∀ (piece : Piece) {behind : List Char}, cs = piece.chars ++ behind →
        ∃ pieces, cs = piecesChars pieces ++ '"' :: rest ∧ pieces.map Piece.value = chars := by
      rintro piece behind rfl
      rw [piece.stringChars_append] at h
      cases hread : stringChars fuel behind with
      | error fault => rw [hread] at h; cases h
      | ok p =>
        rw [hread] at h
        obtain ⟨rfl, rfl⟩ := Prod.mk.inj (Except.ok.inj h)
        obtain ⟨pieces, rfl, hvalue⟩ := ih hread
        refine ⟨piece :: pieces, ?_, by rw [List.map_cons, hvalue]⟩
        rw [piecesChars, piecesChars, List.flatMap_cons, List.append_assoc]
    cases cs with
    | nil => cases h
    | cons c behind =>
      by_cases hquote : c = '"'
      · subst hquote
        obtain ⟨rfl, rfl⟩ := Prod.mk.inj (Except.ok.inj h)
        exact ⟨[], rfl, rfl⟩
      by_cases hbackslash : c = '\\'
      · subst hbackslash
        cases behind with
        | nil => cases h
        | cons letter behind =>
          by_cases hu : letter = 'u'
          · subst hu
            obtain ⟨⟨c, behind⟩, hescape, -⟩ :=
              ok_of_bind (show (readUnicodeEscape _ >>= _) = _ from h)
            obtain ⟨escape, rfl, hread⟩ := readUnicodeEscape_local hescape
            have stands := hread []
            rw [List.append_nil] at stands
            exact hpiece (.code escape c stands) rfl
          · cases hshort : shortEscape? letter with
            | none =>
              rw [stringChars] at h
              · simp only [hshort] at h
                cases h
              · exact hu
            | some c => exact hpiece (.short letter c hshort) rfl
      · by_cases hcontrol : c.toNat < 0x20
        · rw [stringChars.eq_def] at h
          simp only [hquote, hbackslash, hcontrol, if_false, if_true] at h
          cases h
        · exact hpiece (.plain c ⟨hquote, hbackslash, Nat.le_of_not_lt hcontrol⟩) rfl

theorem exists_pieces_of_readString {cs rest : List Char} {text : String}
    (h : readString cs = .ok (text, rest)) :
    ∃ pieces, cs = piecesChars pieces ++ '"' :: rest ∧ piecesText pieces = text := by
  obtain ⟨⟨chars, behind⟩, hchars, h'⟩ := ok_of_bind h
  obtain ⟨rfl, rfl⟩ := Prod.mk.inj (Except.ok.inj h')
  obtain ⟨pieces, rfl, rfl⟩ := exists_pieces hchars
  exact ⟨pieces, rfl, rfl⟩

/-! ## Numbers -/

/-- A number with its sign. -/
def readNumeral : List Char → Except SyntaxError (Parsed Number)
  | '-' :: cs => readMagnitude true cs
  | cs => readMagnitude false cs

/-- A number, and how it is written. -/
structure Numeral where
  chars : List Char
  value : Number
  reads : readNumeral chars = .ok (value, [])

/-- What begins a number: a digit, or a minus in front of one. -/
def BeginsNumber (cs : List Char) : Prop :=
  (∃ c ∈ cs.head?, c.isDigit = true) ∨ ∃ c more, cs = '-' :: c :: more ∧ c.isDigit = true

theorem BeginsNumber.append {cs : List Char} (h : BeginsNumber cs) (more : List Char) :
    BeginsNumber (cs ++ more) := by
  rcases h with ⟨c, hc, hdigit⟩ | ⟨c, behind, rfl, hdigit⟩
  · exact .inl ⟨c, by rw [List.head?_append, hc]; rfl, hdigit⟩
  · exact .inr ⟨c, behind ++ more, rfl, hdigit⟩

theorem readNumeral_of_isDigit {c : Char} (hc : c.isDigit = true) (cs : List Char) :
    readNumeral (c :: cs) = readMagnitude false (c :: cs) := by
  unfold readNumeral
  split
  next heq => exact absurd hc (by rw [(List.cons.inj heq).1]; decide)
  next => rfl

/-- A numeral is read the same way in front of everything that cannot continue it. -/
theorem readNumeral_local {cs rest : List Char} {n : Number} (h : readNumeral cs = .ok (n, rest)) :
    ∃ word, cs = word ++ rest ∧ BeginsNumber word ∧ (∀ c ∈ word, isNumeralChar c = true) ∧
      ∀ more, NumberEnds more → readNumeral (word ++ more) = .ok (n, more) := by
  unfold readNumeral at h
  split at h
  next cs =>
    obtain ⟨c, word, rfl, hc, hchars, hmore⟩ := readMagnitude_local h
    refine ⟨'-' :: c :: word, rfl, .inr ⟨c, word, rfl, hc⟩, ?_, hmore⟩
    exact List.forall_mem_cons.mpr
      ⟨by decide, List.forall_mem_cons.mpr ⟨isNumeralChar_of_isDigit hc, hchars⟩⟩
  next =>
    obtain ⟨c, word, rfl, hc, hchars, hmore⟩ := readMagnitude_local h
    refine ⟨c :: word, rfl, .inl ⟨c, rfl, hc⟩, ?_, fun more hends => ?_⟩
    · exact List.forall_mem_cons.mpr ⟨isNumeralChar_of_isDigit hc, hchars⟩
    · rw [List.cons_append, readNumeral_of_isDigit hc]
      exact hmore more hends

namespace Numeral

/-- The word of a numeral. -/
theorem reads_append (numeral : Numeral) :
    BeginsNumber numeral.chars ∧ (∀ c ∈ numeral.chars, isNumeralChar c = true) ∧
      ∀ more, NumberEnds more →
        readNumeral (numeral.chars ++ more) = .ok (numeral.value, more) := by
  obtain ⟨word, hword, hbegins, hchars, hmore⟩ := readNumeral_local numeral.reads
  rw [List.append_nil] at hword
  exact hword ▸ ⟨hbegins, hchars, hmore⟩

end Numeral

/-- What reads as a number is a numeral. -/
theorem exists_numeral {cs rest : List Char} {n : Number} (h : readNumeral cs = .ok (n, rest)) :
    ∃ numeral : Numeral, cs = numeral.chars ++ rest ∧ numeral.value = n := by
  obtain ⟨word, rfl, -, -, hmore⟩ := readNumeral_local h
  have reads := hmore [] (fun c hc => by cases hc)
  rw [List.append_nil] at reads
  exact ⟨⟨word, n, reads⟩, rfl, rfl⟩

/-- In front of a digit or a minus a number is read. -/
theorem readValue_of_beginsNumber {cs : List Char} (h : BeginsNumber cs) (fuel room : Nat) :
    readValue (fuel + 1) room cs = (readNumeral cs).map fun p => (.number p.1, p.2) := by
  rcases h with ⟨c, hc, hdigit⟩ | ⟨c, more, rfl, -⟩
  · obtain ⟨more, rfl⟩ := List.head?_eq_some_iff.mp hc
    rw [readValue_of_isDigit hdigit, readNumeral_of_isDigit hdigit]
  · rw [readValue, readNumeral]
    show (readMagnitude true _ >>= fun p => Except.ok (Json.number p.1, p.2)) = _
    cases readMagnitude true (c :: more) <;> rfl

/-! ## Documents -/

/-- A key, what stands around its colon, and how it is written. -/
structure SpelledKey where
  pieces : List Piece
  behindKey : Blanks
  behindColon : Blanks

mutual

/-- A way to write a document. -/
inductive Spelling where
  | null
  | bool (value : Bool)
  | number (numeral : Numeral)
  | string (pieces : List Piece)
  | emptyArray (inside : Blanks)
  | array (before : Blanks) (items : SpelledItems)
  | emptyObject (inside : Blanks)
  | object (before : Blanks) (members : SpelledMembers)

/-- A way to write the items of an array and its end. -/
inductive SpelledItems where
  | last (item : Spelling) (after : Blanks)
  | more (item : Spelling) (after before : Blanks) (items : SpelledItems)

/-- A way to write the members of an object and its end. -/
inductive SpelledMembers where
  | last (key : SpelledKey) (value : Spelling) (after : Blanks)
  | more (key : SpelledKey) (value : Spelling) (after before : Blanks) (members : SpelledMembers)

end

/-! ### Texts

The readers of other formats rewrite blanks before they read, so the text of a spelling is told for
any way `gap` to write them. -/

section Texts

variable (gap : List Char → List Char)

/-- A key and its colon. -/
def SpelledKey.chars (key : SpelledKey) : List Char :=
  literal key.pieces ++ (gap key.behindKey.chars ++ ':' :: gap key.behindColon.chars)

mutual

/-- The text of a spelling. -/
def Spelling.chars : Spelling → List Char
  | .null => ['n', 'u', 'l', 'l']
  | .bool true => ['t', 'r', 'u', 'e']
  | .bool false => ['f', 'a', 'l', 's', 'e']
  | .number numeral => numeral.chars
  | .string pieces => literal pieces
  | .emptyArray inside => '[' :: (gap inside.chars ++ [']'])
  | .array before items => '[' :: (gap before.chars ++ items.chars)
  | .emptyObject inside => '{' :: (gap inside.chars ++ ['}'])
  | .object before members => '{' :: (gap before.chars ++ members.chars)

/-- The text of items and the closing bracket. -/
def SpelledItems.chars : SpelledItems → List Char
  | .last item after => item.chars ++ (gap after.chars ++ [']'])
  | .more item after before items =>
    item.chars ++ (gap after.chars ++ ',' :: (gap before.chars ++ items.chars))

/-- The text of members and the closing brace. -/
def SpelledMembers.chars : SpelledMembers → List Char
  | .last key value after => key.chars gap ++ (value.chars ++ (gap after.chars ++ ['}']))
  | .more key value after before members =>
    key.chars gap ++ (value.chars ++
      (gap after.chars ++ ',' :: (gap before.chars ++ members.chars)))

end

end Texts

/-! ### Meaning -/

mutual

/-- What a spelling says. -/
def Spelling.document : Spelling → Json
  | .null => .null
  | .bool value => .bool value
  | .number numeral => .number numeral.value
  | .string pieces => .string (piecesText pieces)
  | .emptyArray _ => .array []
  | .array _ items => .array items.documents
  | .emptyObject _ => .object []
  | .object _ members => .object members.documents

/-- What items say. -/
def SpelledItems.documents : SpelledItems → List Json
  | .last item _ => [item.document]
  | .more item _ _ items => item.document :: items.documents

/-- What members say. -/
def SpelledMembers.documents : SpelledMembers → List (String × Json)
  | .last key value _ => [(piecesText key.pieces, value.document)]
  | .more key value _ _ members => (piecesText key.pieces, value.document) :: members.documents

end

end Rollout.Json
