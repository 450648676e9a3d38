import Rollout.Proofs.Yaml.Portable

/-!
# The words of a JSON text in YAML

A string literal whose pieces are portable is a double-quoted scalar of the same text, which ends on
its own line (`quotedScalar_literal`).  YAML takes a run of blanks at once, to fold a line break
that may be among them, so the spaces of a literal are counted while its pieces are read one by one.

The words for null and booleans, and numbers, are plain scalars.  In a flow collection the blanks
behind them are read along, up to the indicator that ends them (`plainScalar_word`).
-/

namespace Rollout.Yaml

open Json (Piece piecesChars literal)

/-! ## Characters -/

theorem ne_of_test {test : Char → Bool} {b c : Char} (hc : test c = true) (hb : test b = false) :
    c ≠ b := by
  rintro rfl
  rw [hb] at hc
  cases hc

/-- A test that all blanks and breaks fail. -/
theorem isGap_of_test {test : Char → Bool} {c : Char} (hc : test c = true)
    (hgaps : [' ', '\t', '\n', '\u2028', '\u2029'].any test = false) : isGap c = false := by
  simp only [List.any_cons, List.any_nil, Bool.or_eq_false_iff] at hgaps
  obtain ⟨hspace, htab, hfeed, hline, hparagraph, -⟩ := hgaps
  simp [isGap, isBlank, isBreak, ne_of_test hc hspace, ne_of_test hc htab, ne_of_test hc hfeed,
    ne_of_test hc hline, ne_of_test hc hparagraph]

theorem isBreak_of_isGap {c : Char} (h : isGap c = false) : isBreak c = false :=
  (Bool.or_eq_false_iff.mp h).2

/-! ## Cursors -/

theorem foldl_past_of_inLine : ∀ {cs : List Char}, (∀ c ∈ cs, isBreak c = false) → ∀ p : Position,
    cs.foldl Position.past p = ⟨p.line, p.column + cs.length⟩
  | [], _, _ => rfl
  | c :: cs, h, p => by
      obtain ⟨hc, hcs⟩ := List.forall_mem_cons.mp h
      have hpast : p.past c = ⟨p.line, p.column + 1⟩ := by simp [Position.past, hc]
      rw [List.foldl_cons, hpast, foldl_past_of_inLine hcs, List.length_cons,
        Nat.add_comm cs.length, Nat.add_assoc]

theorem atDocumentMarker_of_column_ne {here : Cursor} (h : here.column ≠ 0) :
    here.atDocumentMarker = false := by
  simp [Cursor.atDocumentMarker, Cursor.atMarker, h]

theorem Cursor.span_append {test : Char → Bool} {run rest : List Char}
    (hrun : ∀ c ∈ run, test c = true) (hrest : ∀ c ∈ rest.head?, test c = false) (p : Position) :
    (⟨run ++ rest, p⟩ : Cursor).span test = (run, ⟨rest, run.foldl Position.past p⟩) := by
  have hstop : rest.takeWhile test = [] ∧ rest.dropWhile test = rest := by
    cases rest with
    | nil => exact ⟨rfl, rfl⟩
    | cons c rest => simp [hrest c rfl]
  rw [Cursor.span, List.takeWhile_append_of_pos hrun, List.dropWhile_append_of_pos hrun, hstop.1,
    hstop.2, List.append_nil]

theorem foldGap_of_inLine {gap : List Char} (h : ∀ c ∈ gap, isBreak c = false) :
    foldGap gap = gap := by
  have hfilter : gap.filter isBreak = [] :=
    List.filter_eq_nil_iff.mpr fun c hc => by rw [h c hc]; exact Bool.false_ne_true
  rw [foldGap, hfilter]

/-! ## Double-quoted scalars -/

theorem shortEscape?_of_json {letter c : Char} (h : Json.shortEscape? letter = some c) :
    shortEscape? letter = some c := by
  unfold Json.shortEscape? at h
  split at h
  all_goals first | exact h | cases h

theorem doubleQuotedRest_char {c : Char} (hgap : isGap c = false) (hquote : c ≠ '"')
    (hbackslash : c ≠ '\\') {p : Position} (hp : p.column ≠ 0) (x : Char) (fuel rest : List Char) :
    doubleQuotedRest (x :: fuel) ⟨c :: rest, p⟩ =
      (doubleQuotedRest fuel ⟨rest, p.past c⟩).map fun q => (c :: q.1, q.2) := by
  have hmark : (⟨c :: rest, p⟩ : Cursor).atDocumentMarker = false :=
    atDocumentMarker_of_column_ne hp
  rw [doubleQuotedRest, hmark, if_neg Bool.false_ne_true]
  split
  next heq => cases heq
  next heq => exact absurd (List.cons.inj heq).1 hquote
  next heq => exact absurd (List.cons.inj heq).1 hbackslash
  next heq =>
    obtain ⟨rfl, rfl⟩ := List.cons.inj heq
    rw [if_neg (by rw [hgap]; decide)]
    show (doubleQuotedRest fuel ⟨rest, p.past c⟩ >>= fun q => some (c :: q.1, q.2)) = _
    cases doubleQuotedRest fuel ⟨rest, p.past c⟩ <;> rfl

/-- Spaces stand for themselves. -/
theorem doubleQuotedRest_spaces (n : Nat) {p : Position} (hp : p.column ≠ 0) (x : Char)
    (fuel : List Char) {rest : List Char} (hrest : ∀ c ∈ rest.head?, isGap c = false) :
    doubleQuotedRest (x :: fuel) ⟨List.replicate (n + 1) ' ' ++ rest, p⟩ =
      (doubleQuotedRest fuel ⟨rest, ⟨p.line, p.column + (n + 1)⟩⟩).map
        fun q => (List.replicate (n + 1) ' ' ++ q.1, q.2) := by
  have hspaces : ∀ c ∈ List.replicate (n + 1) ' ', isGap c = true ∧ isBreak c = false := by
    intro c hc
    rw [List.eq_of_mem_replicate hc]
    decide
  have hspan : (⟨List.replicate (n + 1) ' ' ++ rest, p⟩ : Cursor).span isGap =
      (List.replicate (n + 1) ' ', ⟨rest, ⟨p.line, p.column + (n + 1)⟩⟩) := by
    rw [Cursor.span_append (fun c hc => (hspaces c hc).1) hrest,
      foldl_past_of_inLine fun c hc => (hspaces c hc).2, List.length_replicate]
  have hfold := foldGap_of_inLine fun c hc => (hspaces c hc).2
  have hmark : (⟨List.replicate (n + 1) ' ' ++ rest, p⟩ : Cursor).atDocumentMarker = false :=
    atDocumentMarker_of_column_ne hp
  rw [doubleQuotedRest, hmark, if_neg Bool.false_ne_true]
  split
  next heq => cases heq
  next heq => cases heq
  next heq => cases heq
  next heq =>
    obtain ⟨rfl, rfl⟩ := List.cons.inj heq
    rw [if_pos (by decide), hspan]
    dsimp only
    rw [hfold]
    show (doubleQuotedRest fuel ⟨rest, _⟩ >>= fun q => some (_ ++ q.1, q.2)) = _
    cases doubleQuotedRest fuel ⟨rest, ⟨p.line, p.column + (n + 1)⟩⟩ <;> rfl

/-- An escape is read as the character that it stands for. -/
theorem doubleQuotedRest_escape {c : Char} {escape : List Char} {p : Position} {there : Cursor}
    (hread : readEscape ⟨escape, p.past '\\'⟩ = some (c, there))
    (hbreak : ∀ d ∈ escape.head?, isBreak d = false) (hp : p.column ≠ 0) (x : Char)
    (fuel : List Char) :
    doubleQuotedRest (x :: fuel) ⟨'\\' :: escape, p⟩ =
      (doubleQuotedRest fuel there).map fun q => (c :: q.1, q.2) := by
  have hmark : (⟨'\\' :: escape, p⟩ : Cursor).atDocumentMarker = false :=
    atDocumentMarker_of_column_ne hp
  have hjoined : escape.head?.any isBreak = false := by
    cases h : escape.head? with
    | none => rfl
    | some d => exact hbreak d h
  rw [doubleQuotedRest, hmark, if_neg Bool.false_ne_true]
  show (if escape.head?.any isBreak = true then _ else readEscape ⟨escape, p.past '\\'⟩ >>= _) = _
  rw [hjoined, if_neg Bool.false_ne_true, hread]
  show (doubleQuotedRest fuel there >>= fun q => some (c :: q.1, q.2)) = _
  cases doubleQuotedRest fuel there <;> rfl

theorem readEscape_short {letter c : Char} (h : shortEscape? letter = some c) (rest : List Char)
    (p : Position) : readEscape ⟨letter :: rest, p⟩ = some (c, ⟨rest, p.past letter⟩) := by
  simp only [readEscape, h]
  rfl

theorem digitValue?_lt {c : Char} {n : Nat} (h : digitValue? 16 c = some n) : n < 16 := by
  unfold digitValue? at h
  exact of_decide_eq_true (Option.filter_eq_some_iff.mp h).2

/-- A code below the planes that pairs reach, and its character. -/
theorem charOfCode?_of_escapedChar {code : Nat} {c : Char} (hlt : code < 0x10000)
    (h : Json.escapedChar code [] = .ok (c, [])) : charOfCode? code = some c := by
  unfold Json.escapedChar at h
  split at h
  next => cases h
  next htrailing =>
    split at h
    next hleading =>
      have hvalid : code.isValidChar := by
        simp only [Json.isTrailing, Json.isLeading, Bool.and_eq_true, Bool.not_eq_true',
          Bool.and_eq_false_iff, decide_eq_true_eq, decide_eq_false_iff_not] at htrailing hleading
        simp only [Nat.isValidChar]
        omega
      rw [charOfCode?, dif_pos hvalid, ← (Prod.mk.inj (Except.ok.inj h)).1, Char.ofNat,
        dif_pos hvalid]
    next => cases h

/-- An escape of one unit is four digits and names their character. -/
theorem digits_of_stands {escape : List Char} {c : Char}
    (stands : Json.readUnicodeEscape escape = .ok (c, [])) (hlength : escape.length = 4) :
    escape.all (isDigitOf 16) = true ∧ charOfCode? (naturalIn 16 escape) = some c := by
  rw [Json.readUnicodeEscape_eq] at stands
  obtain ⟨⟨code, behind⟩, hcode, hchar⟩ := ok_of_bind stands
  obtain ⟨a, b, c', d, rfl, -⟩ := Json.readHex4_local hcode
  obtain rfl : behind = [] := List.eq_nil_of_length_eq_zero (by simpa using hlength)
  unfold Json.readHex4 at hcode
  dsimp only at hcode
  split at hcode
  next va vb vc vd ha hb hc hd =>
    obtain ⟨rfl, -⟩ := Prod.mk.inj (Except.ok.inj hcode)
    have hvalue : naturalIn 16 [a, b, c', d] = ((va * 16 + vb) * 16 + vc) * 16 + vd := by
      simp only [naturalIn, List.foldl_cons, List.foldl_nil, ha, hb, hc, hd, Option.getD_some]
      omega
    have hlt : ((va * 16 + vb) * 16 + vc) * 16 + vd < 0x10000 := by
      have := digitValue?_lt ha
      have := digitValue?_lt hb
      have := digitValue?_lt hc
      have := digitValue?_lt hd
      omega
    exact ⟨by simp [isDigitOf, ha, hb, hc, hd],
      hvalue ▸ charOfCode?_of_escapedChar hlt hchar⟩
  next => cases hcode

/-- The digits of an escape are read as the character that they name. -/
theorem readEscape_code {escape : List Char} {c : Char} (hlength : escape.length = 4)
    (hdigits : escape.all (isDigitOf 16) = true)
    (hcode : charOfCode? (naturalIn 16 escape) = some c) (rest : List Char) (p : Position) :
    readEscape ⟨'u' :: (escape ++ rest), p⟩ =
      some (c, (⟨'u' :: (escape ++ rest), p⟩ : Cursor).skip 5) := by
  have htake : (escape ++ rest).take 4 = escape := List.take_left' hlength
  show (let digits := (escape ++ rest).take 4
    if (digits.length = 4 && digits.all (isDigitOf 16)) = true then
      charOfCode? (naturalIn 16 digits) >>= fun c => some (c, _)
    else none) = _
  rw [htake]
  dsimp only
  rw [hlength, hdigits, hcode]
  rfl

theorem skip_length : ∀ (cs rest : List Char) (p : Position),
    (⟨cs ++ rest, p⟩ : Cursor).skip cs.length = ⟨rest, cs.foldl Position.past p⟩
  | [], _, _ => rfl
  | c :: cs, rest, p => skip_length cs rest (p.past c)

/-- A space that stands for itself. -/
def isSpace : Piece → Bool
  | .plain c _ => c = ' '
  | _ => false

theorem inLine_of_portable {piece : Piece} (h : piece.Portable) :
    ∀ c ∈ piece.chars, isBreak c = false := by
  cases piece with
  | plain c isPlain => exact List.forall_mem_singleton.mpr h.2.2
  | short letter c stands =>
    refine List.forall_mem_cons.mpr ⟨by decide, List.forall_mem_singleton.mpr ?_⟩
    unfold Json.shortEscape? at stands
    split at stands
    all_goals first | decide | cases stands
  | code escape c stands =>
    have hdigits := List.all_eq_true.mp (digits_of_stands stands h).1
    exact List.forall_mem_cons.mpr ⟨by decide, List.forall_mem_cons.mpr
      ⟨by decide, fun d hd => isBreak_of_isGap (isGap_of_test (hdigits d hd) (by decide))⟩⟩

theorem isGap_head_piece {piece : Piece} (h : piece.Portable) (hspace : isSpace piece = false)
    (rest : List Char) : ∀ c ∈ (piece.chars ++ rest).head?, isGap c = false := by
  intro c hc
  cases piece with
  | plain d isPlain =>
    obtain rfl := Option.some.inj hc
    have htab : d ≠ '\t' := by
      rintro rfl
      exact absurd isPlain.2.2 (by decide)
    simpa [isSpace, isGap, isBlank, h.2.2, htab] using hspace
  | short => exact Option.some.inj hc ▸ by decide
  | code => exact Option.some.inj hc ▸ by decide

/-- One piece that is no space is read as the character that it stands for. -/
theorem doubleQuotedRest_piece {piece : Piece} (h : piece.Portable) (hspace : isSpace piece = false)
    {p : Position} (hp : p.column ≠ 0) (x : Char) (fuel rest : List Char) :
    doubleQuotedRest (x :: fuel) ⟨piece.chars ++ rest, p⟩ =
      (doubleQuotedRest fuel ⟨rest, ⟨p.line, p.column + piece.chars.length⟩⟩).map
        fun q => (piece.value :: q.1, q.2) := by
  have hinLine := inLine_of_portable h
  rw [← foldl_past_of_inLine hinLine p]
  cases piece with
  | plain c isPlain =>
    have hgap := isGap_head_piece h hspace rest c rfl
    exact doubleQuotedRest_char hgap isPlain.1 isPlain.2.1 hp x fuel rest
  | short letter c stands =>
    have hread := readEscape_short (shortEscape?_of_json stands) rest (p.past '\\')
    refine doubleQuotedRest_escape hread (fun d hd => ?_) hp x fuel
    exact hinLine d (List.mem_cons_of_mem _ (Option.some.inj hd ▸ List.mem_singleton_self _))
  | code escape c stands =>
    obtain ⟨hdigits, hcode⟩ := digits_of_stands stands h
    have hread := readEscape_code h hdigits hcode rest (p.past '\\')
    have hskip := skip_length ('u' :: escape) rest (p.past '\\')
    rw [List.length_cons, h] at hskip
    rw [List.cons_append] at hskip
    rw [hskip] at hread
    exact doubleQuotedRest_escape hread (fun d hd => Option.some.inj hd ▸ by decide) hp x fuel

/-- The spaces in front of what is none take at most as many steps as they are. -/
theorem exists_doubleQuotedRest_spaces (n : Nat) {fuel : List Char} (hfuel : n < fuel.length)
    {p : Position} (hp : p.column ≠ 0) (rest : List Char)
    (hrest : ∀ c ∈ rest.head?, isGap c = false) :
    ∃ fuel', fuel.length ≤ fuel'.length + n ∧
      doubleQuotedRest fuel ⟨List.replicate n ' ' ++ rest, p⟩ =
        (doubleQuotedRest fuel' ⟨rest, ⟨p.line, p.column + n⟩⟩).map
          fun q => (List.replicate n ' ' ++ q.1, q.2) := by
  cases n with
  | zero => exact ⟨fuel, Nat.le_refl _, by simp⟩
  | succ n =>
    cases fuel with
    | nil => exact absurd hfuel (Nat.not_lt_zero _)
    | cons x fuel =>
      refine ⟨fuel, ?_, doubleQuotedRest_spaces n hp x fuel hrest⟩
      rw [List.length_cons]
      omega

/-- The pieces of a literal are read as their text, whatever stands behind the literal.  A run of
spaces is read in one step, so the induction carries the number `n` of those just passed. -/
theorem doubleQuotedRest_pieces : ∀ {pieces : List Piece}, (∀ piece ∈ pieces, piece.Portable) →
    ∀ (n : Nat) {fuel : List Char}, pieces.length + n < fuel.length →
      ∀ {p : Position}, p.column ≠ 0 → ∀ rest : List Char,
        doubleQuotedRest fuel ⟨List.replicate n ' ' ++ (piecesChars pieces ++ '"' :: rest), p⟩ =
          some (List.replicate n ' ' ++ pieces.map Piece.value,
            ⟨rest, ⟨p.line, p.column + n + (piecesChars pieces).length + 1⟩⟩)
  | [], _, n, fuel, hfuel, p, hp, rest => by
      obtain ⟨fuel', hlength, hread⟩ := exists_doubleQuotedRest_spaces n (by simpa using hfuel) hp
        ('"' :: rest) (fun c hc => Option.some.inj hc ▸ by decide)
      cases fuel' with
      | nil =>
        simp only [List.length_nil] at hlength hfuel
        omega
      | cons x fuel' =>
        have hmark : (⟨'"' :: rest, ⟨p.line, p.column + n⟩⟩ : Cursor).atDocumentMarker = false :=
          atDocumentMarker_of_column_ne (by show p.column + n ≠ 0; omega)
        show doubleQuotedRest fuel ⟨List.replicate n ' ' ++ '"' :: rest, p⟩ = _
        rw [hread, doubleQuotedRest, hmark]
        rfl
  | piece :: pieces, h, n, fuel, hfuel, p, hp, rest => by
      obtain ⟨hpiece, hpieces⟩ := List.forall_mem_cons.mp h
      rw [List.length_cons] at hfuel
      have hchars : piecesChars (piece :: pieces) = piece.chars ++ piecesChars pieces := rfl
      rw [hchars, List.append_assoc, List.length_append]
      cases hspace : isSpace piece with
      | true =>
        have hone : piece.chars = [' '] ∧ piece.value = ' ' := by
          cases piece with
          | plain c => exact of_decide_eq_true hspace ▸ ⟨rfl, rfl⟩
          | short => cases hspace
          | code => cases hspace
        have hread := doubleQuotedRest_pieces hpieces (n + 1)
          (show pieces.length + (n + 1) < fuel.length by omega) hp rest
        rw [List.replicate_succ', List.append_assoc, List.append_assoc] at hread
        rw [hone.1, hread, List.map_cons, hone.2]
        simp only [List.singleton_append, List.length_singleton]
        congr 4
        omega
      | false =>
        obtain ⟨fuel', hlength, hread⟩ := exists_doubleQuotedRest_spaces n
          (show n < fuel.length by omega) hp _
          (isGap_head_piece hpiece hspace (piecesChars pieces ++ '"' :: rest))
        cases fuel' with
        | nil =>
          simp only [List.length_nil] at hlength
          omega
        | cons x fuel' =>
          rw [List.length_cons] at hlength
          have hmore := doubleQuotedRest_pieces hpieces 0
            (show pieces.length + 0 < fuel'.length by omega)
            (show (⟨p.line, p.column + n + piece.chars.length⟩ : Position).column ≠ 0 by
              show p.column + n + piece.chars.length ≠ 0
              omega) rest
          rw [List.replicate_zero, List.nil_append, List.nil_append] at hmore
          rw [hread, doubleQuotedRest_piece hpiece hspace (by show p.column + n ≠ 0; omega), hmore,
            Nat.add_zero, ← Nat.add_assoc]
          rfl

/-- A literal is read as its text, on the line where it stands. -/
theorem quotedScalar_literal {pieces : List Piece} (h : ∀ piece ∈ pieces, piece.Portable)
    (rest : List Char) (p : Position) :
    quotedScalar false ⟨literal pieces ++ rest, p⟩ =
      some (Json.piecesText pieces, ⟨rest, ⟨p.line, p.column + (literal pieces).length⟩⟩) := by
  have hpast : p.past '"' = ⟨p.line, p.column + 1⟩ := rfl
  have hlength := Json.length_le_length_piecesChars pieces
  have hinside : (⟨literal pieces ++ rest, p⟩ : Cursor).skip 1 =
      ⟨piecesChars pieces ++ '"' :: rest, ⟨p.line, p.column + 1⟩⟩ := by
    rw [← hpast]
    simp [literal, Cursor.skip]
  have hread := doubleQuotedRest_pieces h 0
    (show pieces.length + 0 < (' ' :: (piecesChars pieces ++ '"' :: rest)).length by
      simp only [List.length_cons, List.length_append]
      omega) (show (⟨p.line, p.column + 1⟩ : Position).column ≠ 0 from Nat.succ_ne_zero _) rest
  rw [List.replicate_zero, List.nil_append, List.nil_append] at hread
  rw [quotedScalar, hinside]
  show (doubleQuotedRest _ _ >>= _) = _
  have hend : p.column + 1 + 0 + (piecesChars pieces).length + 1 =
      p.column + (literal pieces).length := by
    simp only [literal, List.length_cons, List.length_append, List.length_nil]
    omega
  rw [Cursor.fuel, hread, ← hend]
  rfl

/-! ## Plain scalars in flow collections -/

/-- A character of the words that both formats write alike. -/
def isWordChar (c : Char) : Bool := "nulltruefalse".toList.contains c || Json.isNumeralChar c

theorem isWordChar_of_isNumeralChar {c : Char} (h : Json.isNumeralChar c = true) :
    isWordChar c = true := by
  rw [isWordChar, h, Bool.or_true]

theorem tabBeforeMargin_zero (gap : List Char) : tabBeforeMargin 0 gap = false := by
  have hgo : ∀ (gap : List Char) (column? : Option Nat),
      tabBeforeMargin.go 0 column? gap = false := by
    intro gap
    induction gap with
    | nil => intro column?; rfl
    | cons c gap ih =>
      intro column?
      unfold tabBeforeMargin.go
      split
      · exact ih _
      · cases column? with
        | none => exact ih _
        | some column => simp [ih]
  exact hgo gap none

/-- What ends a word in a flow collection: an indicator behind blanks and breaks. -/
structure EndsWord (rest gap : List Char) (c : Char) (more : List Char) : Prop where
  eq : rest = gap ++ c :: more
  gap : ∀ d ∈ gap, isGap d = true
  indicator : c = ',' ∨ c = ']' ∨ c = '\x7d'

theorem plainRest_indicator {c : Char} (hc : c = ',' ∨ c = ']' ∨ c = '\x7d') (x : Char)
    (fuel gap more : List Char) (p : Position) :
    plainRest true 0 (x :: fuel) gap ⟨c :: more, p⟩ =
      some (([], gap.any isBreak), ⟨c :: more, p⟩) := by
  rw [plainRest]
  split
  next => rfl
  next =>
    rcases hc with rfl | rfl | rfl
    · rfl
    · rfl
    · rfl

theorem plainRest_end {rest gap more : List Char} {c : Char} (hends : EndsWord rest gap c more)
    {fuel : List Char} (hfuel : 2 ≤ fuel.length) (p : Position) :
    plainRest true 0 fuel [] ⟨rest, p⟩ =
      some (([], gap.any isBreak), ⟨c :: more, gap.foldl Position.past p⟩) := by
  obtain ⟨rfl, hgap, hc⟩ := hends
  match fuel, hfuel with
  | x :: y :: fuel, _ =>
    cases gap with
    | nil => exact plainRest_indicator hc x _ _ more p
    | cons d gap =>
      have hstop : isGap c = false := by
        rcases hc with rfl | rfl | rfl <;> decide
      have hspan : (⟨d :: gap ++ c :: more, p⟩ : Cursor).span isGap =
          (d :: gap, ⟨c :: more, (d :: gap).foldl Position.past p⟩) :=
        Cursor.span_append hgap (by simpa using hstop) p
      obtain ⟨hrun, hthere⟩ := Prod.mk.inj hspan
      rw [plainRest]
      show (if isGap d = true then _ else _) = _
      rw [if_pos (hgap d List.mem_cons_self)]
      show (if tabBeforeMargin 0 (List.takeWhile isGap _) = true then none
        else plainRest true 0 (y :: fuel) (List.takeWhile isGap _) _) = _
      rw [hthere, hrun, tabBeforeMargin_zero, if_neg Bool.false_ne_true]
      exact plainRest_indicator hc y fuel _ more _

/-- A character that ends no word. -/
theorem not_ends_of_isWordChar {c : Char} (h : isWordChar c = true) :
    isGap c = false ∧ c ≠ ':' ∧ isFlowIndicator c = false := by
  have hne := fun {b : Char} (hb : isWordChar b = false) => ne_of_test h hb
  refine ⟨isGap_of_test h (by decide), hne (by decide), ?_⟩
  simp [isFlowIndicator, hne (b := ',') (by decide), hne (b := '[') (by decide),
    hne (b := ']') (by decide), hne (b := '\x7b') (by decide), hne (b := '\x7d') (by decide)]

/-- A word is read up to what ends it, and so are the blanks behind it. -/
theorem plainRest_word {rest gap more : List Char} {c : Char} (hends : EndsWord rest gap c more) :
    ∀ {word : List Char}, (∀ d ∈ word, isWordChar d = true) → ∀ {fuel : List Char} (p : Position),
      word.length + 2 ≤ fuel.length →
        plainRest true 0 fuel [] ⟨word ++ rest, p⟩ =
          some ((word, gap.any isBreak), ⟨c :: more, (word ++ gap).foldl Position.past p⟩)
  | [], _, fuel, p, hfuel => plainRest_end hends hfuel p
  | d :: word, _, [], _, hfuel => absurd hfuel (Nat.not_succ_le_zero _)
  | d :: word, hword, x :: fuel, p, hfuel => by
      obtain ⟨hd, hword⟩ := List.forall_mem_cons.mp hword
      obtain ⟨hgap, hcolon, hindicator⟩ := not_ends_of_isWordChar hd
      have hread := plainRest_word hends hword (p.past d)
        (show word.length + 2 ≤ fuel.length by simpa using hfuel)
      rw [plainRest]
      show (if isGap d = true then _ else _) = _
      rw [if_neg (by rw [hgap]; decide), if_neg (by simp [hcolon]),
        if_neg (by simp [hcolon, hindicator])]
      show (plainRest true 0 fuel [] ⟨word ++ rest, p.past d⟩ >>= _) = _
      rw [hread]
      rfl

theorem plainScalar_word {word rest gap more : List Char} {c : Char}
    (hends : EndsWord rest gap c more) (hword : ∀ d ∈ word, isWordChar d = true) (p : Position) :
    plainScalar true 0 ⟨word ++ rest, p⟩ =
      some ((String.ofList word, gap.any isBreak),
        ⟨c :: more, (word ++ gap).foldl Position.past p⟩) := by
  have hlength : word.length + 2 ≤ (' ' :: (word ++ rest)).length := by
    rw [hends.eq]
    simp only [List.length_cons, List.length_append]
    omega
  rw [plainScalar, Cursor.fuel, plainRest_word hends hword p hlength]
  rfl

end Rollout.Yaml
