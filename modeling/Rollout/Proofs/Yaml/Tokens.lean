import Rollout.Proofs.Yaml.Flow

/-!
# The tokens of a JSON text

A spelling has its tokens, one for each word and indicator and one more in front of each key.  They
do not tell blanks.  Whatever stands behind a portable spelling inside a flow collection, reading it
adds these tokens and leads to a calm state behind it (`Layout.leads_spelling`).  The induction is on
the spelling: a value stays in its collection, items and members end with the bracket that closes it.
-/

namespace Rollout

/-! ## The tokens of a spelling -/

namespace Json

open Yaml (Token)

/-- The tokens of a key and its colon. -/
def SpelledKey.tokens (key : SpelledKey) : List Token :=
  [.key, .scalar (piecesText key.pieces) false, .value]

mutual

/-- The tokens of a spelling. -/
def Spelling.tokens : Spelling → List Token
  | .null => [.scalar "null" true]
  | .bool value => [.scalar (if value then "true" else "false") true]
  | .number numeral => [.scalar (String.ofList numeral.chars) true]
  | .string pieces => [.scalar (piecesText pieces) false]
  | .emptyArray _ => [.flowSequence, .flowSequenceEnd]
  | .array _ items => .flowSequence :: items.tokens
  | .emptyObject _ => [.flowMapping, .flowMappingEnd]
  | .object _ members => .flowMapping :: members.tokens

/-- The tokens of items and the closing bracket. -/
def SpelledItems.tokens : SpelledItems → List Token
  | .last item _ => item.tokens ++ [.flowSequenceEnd]
  | .more item _ _ items => item.tokens ++ .comma :: items.tokens

/-- The tokens of members and the closing brace. -/
def SpelledMembers.tokens : SpelledMembers → List Token
  | .last key value _ => key.tokens ++ (value.tokens ++ [.flowMappingEnd])
  | .more key value _ _ members => key.tokens ++ (value.tokens ++ .comma :: members.tokens)

end

end Json

/-! ## Blanks with unified breaks -/

namespace Yaml

theorem unifyBreaks_cons {c : Char} (h : c ≠ '\r' ∧ c ≠ '\u0085') (rest : List Char) :
    unifyBreaks (c :: rest) = c :: unifyBreaks rest := by
  rw [unifyBreaks]
  · simp [h]
  · exact fun _ heq => absurd heq h.1

theorem unifyBreaks_append_of_inLine : ∀ {cs : List Char},
    (∀ c ∈ cs, c ≠ '\r' ∧ c ≠ '\u0085') → ∀ rest : List Char,
      unifyBreaks (cs ++ rest) = cs ++ unifyBreaks rest
  | [], _, _ => rfl
  | c :: cs, h, rest => by
      obtain ⟨hc, hcs⟩ := List.forall_mem_cons.mp h
      rw [List.cons_append, unifyBreaks_cons hc, unifyBreaks_append_of_inLine hcs, List.cons_append]

theorem unifyBreaks_of_inLine {cs : List Char} (h : ∀ c ∈ cs, c ≠ '\r' ∧ c ≠ '\u0085') :
    unifyBreaks cs = cs := by
  have hread := unifyBreaks_append_of_inLine h []
  rwa [List.append_nil, unifyBreaks, List.append_nil] at hread

/-- A carriage return takes a line feed behind it, and nothing else. -/
theorem unifyBreaks_append {c : Char} (h : c ≠ '\n') (rest : List Char) : ∀ cs : List Char,
    unifyBreaks (cs ++ c :: rest) = unifyBreaks cs ++ unifyBreaks (c :: rest) := by
  intro cs
  induction cs using unifyBreaks.induct with
  | case1 => rfl
  | case2 cs ih => exact congrArg ('\n' :: ·) ih
  | case3 d cs hd ih =>
    have hpair : ∀ behind, d = '\r' → cs ++ c :: rest = '\n' :: behind → False := by
      intro behind hreturn heq
      cases cs with
      | nil => exact h (List.cons.inj heq).1
      | cons e cs => exact hd cs hreturn (congrArg (· :: cs) (List.cons.inj heq).1)
    rw [List.cons_append, unifyBreaks.eq_3 _ _ hpair, unifyBreaks.eq_3 _ _ hd, ih, List.cons_append]

/-- A carriage return does not remain. -/
theorem mem_unifyBreaks {c : Char} {cs : List Char} (h : c ∈ unifyBreaks cs) :
    c = '\n' ∨ c ∈ cs ∧ c ≠ '\r' := by
  induction cs using unifyBreaks.induct with
  | case1 => cases h
  | case2 cs ih =>
    rcases List.mem_cons.mp h with rfl | h
    · exact .inl rfl
    · exact (ih h).imp_right fun hmem =>
        ⟨List.mem_cons_of_mem _ (List.mem_cons_of_mem _ hmem.1), hmem.2⟩
  | case3 d cs hd ih =>
    rw [unifyBreaks.eq_3 _ _ hd] at h
    rcases List.mem_cons.mp h with rfl | h
    · split
      next => exact .inl rfl
      next hne =>
        have hreturn : d ≠ '\r' := by
          rintro rfl
          exact hne rfl
        exact .inr ⟨List.mem_cons_self, hreturn⟩
    · exact (ih h).imp_right fun hmem => ⟨List.mem_cons_of_mem d hmem.1, hmem.2⟩

end Yaml

namespace Json

theorem Blanks.blank_or_break (blanks : Blanks) :
    ∀ c ∈ blanks.chars, c = ' ' ∨ c = '\t' ∨ c = '\n' ∨ c = '\r' := by
  intro c hc
  simpa [isBlank, or_assoc] using blanks.allBlank c hc

theorem Blanks.isGap_of_mem_unifyBreaks (blanks : Blanks) :
    ∀ c ∈ Yaml.unifyBreaks blanks.chars, Yaml.isGap c = true := by
  intro c hc
  rcases Yaml.mem_unifyBreaks hc with rfl | ⟨hmem, hreturn⟩
  · decide
  · rcases blanks.blank_or_break c hmem with rfl | rfl | rfl | rfl
    · decide
    · decide
    · decide
    · exact absurd rfl hreturn

end Json

namespace Yaml

open Json (Piece literal piecesText Spelling SpelledItems SpelledMembers SpelledKey Blanks)

namespace Layout

/-! ## Steps inside flow collections -/

section Steps

variable {s : Layout} {level : Nat} {tokens : List Token} {gap more : List Char} {c : Char}

/-- Blanks ahead do not matter. -/
theorem At.skip {ahead : List Char} (h : At s level tokens (gap ++ ahead))
    (hgap : ∀ d ∈ gap, isGap d = true) : At s level tokens ahead :=
  ⟨h.calm, h.level, h.tokens, h.ahead.trans (List.dropWhile_append_of_pos hgap)⟩

theorem Indicates.ne {read : Layout → Option Layout} (h : Indicates c read) :
    isGap c = false ∧ c ≠ '#' := by
  cases h <;> decide

/-- The state in front of an indicator, and how it is read. -/
theorem At.indicator {read : Layout → Option Layout} (h : At s (level + 1) tokens (c :: more))
    (hc : Indicates c read) :
    ∃ passed t, Ready s passed (c :: more) t ∧
      ∀ u, read t = some u → u.cursor.ahead.length ≤ more.length → s.Leads u := by
  obtain ⟨passed, t, hahead, hready⟩ := h.exists_ready hc.ne.1 hc.ne.2
  refine ⟨passed, t, hready, fun u hread hlength => hready.leads hahead ?_ hlength⟩
  rw [readToken_of_indicates hc hready.ahead, hread]

theorem At.openFlow {token : Token} (h : At s (level + 1) tokens (c :: more))
    (hc : Indicates c (Layout.openFlow token)) :
    ∃ u, s.Leads u ∧ u.keyAllowed = true ∧ At u (level + 2) (token :: tokens) more := by
  obtain ⟨passed, t, hready, hleads⟩ := h.indicator hc
  obtain ⟨u, hread, hkey, hmore, hu⟩ := openFlow_of_ready hready token
  rw [h.level, h.tokens] at hu
  exact ⟨u, hleads u hread (hmore ▸ Nat.le_refl _), hkey, hu⟩

theorem At.closeFlow {token : Token} (h : At s (level + 1) tokens (c :: more))
    (hc : Indicates c (Layout.closeFlow token)) :
    ∃ u, s.Leads u ∧ u.keyAllowed = false ∧ u.cursor.ahead = more ∧
      At u level (token :: tokens) more := by
  obtain ⟨passed, t, hready, hleads⟩ := h.indicator hc
  obtain ⟨u, hread, hkey, hmore, hu⟩ := closeFlow_of_ready hready h.level token
  rw [h.tokens] at hu
  exact ⟨u, hleads u hread (hmore ▸ Nat.le_refl _), hkey, hmore, hu⟩

theorem At.comma (h : At s (level + 1) tokens (',' :: more)) :
    ∃ u, s.Leads u ∧ u.keyAllowed = true ∧ At u (level + 1) (.comma :: tokens) more := by
  obtain ⟨passed, t, hready, hleads⟩ := h.indicator .comma
  obtain ⟨u, hread, hkey, hmore, hu⟩ := readComma_of_ready hready
  rw [h.level, h.tokens] at hu
  exact ⟨u, hleads u hread (hmore ▸ Nat.le_refl _), hkey, hu⟩

theorem literal_append (pieces : List Piece) (rest : List Char) :
    literal pieces ++ rest = '"' :: (Json.piecesChars pieces ++ '"' :: rest) := by
  simp [literal]

/-- A literal, and the candidate for a key that it leaves. -/
theorem At.literal {pieces : List Piece} (hpieces : ∀ piece ∈ pieces, piece.Portable)
    {rest : List Char} (h : At s (level + 1) tokens (Json.literal pieces ++ rest)) :
    ∃ u, s.Leads u ∧ At u (level + 1) (.scalar (piecesText pieces) false :: tokens) rest ∧
      ∃ position : Position,
        u.cursor = ⟨rest, ⟨position.line, position.column + (Json.literal pieces).length⟩⟩ ∧
        (s.keyAllowed = true → u.candidate = some ⟨tokens.length, position, false⟩) := by
  have hquote := literal_append pieces rest
  rw [hquote] at h
  obtain ⟨passed, t, hready, hleads⟩ := h.indicator .quote
  obtain ⟨u, hread, hcursor, hu, hcandidate⟩ := readQuoted_of_ready hpieces hready hquote
  rw [h.level, h.tokens] at hu
  rw [h.tokens, hready.keyAllowed (inFlow_of_level h.level)] at hcandidate
  refine ⟨u, hleads u hread ?_, hu, t.cursor.position, hcursor, hcandidate⟩
  rw [hcursor, List.length_append, List.length_cons]
  show rest.length ≤ _
  omega

/-- A word that an indicator ends. -/
theorem At.word {word rest blanks ahead : List Char} {c d : Char}
    (hword : ∀ e ∈ c :: word, isWordChar e = true) (hbegins : BeginsWord c word)
    (h : At s (level + 1) tokens (c :: word ++ rest)) (hends : EndsWord rest blanks d ahead) :
    ∃ u, s.Leads u ∧
      At u (level + 1) (.scalar (String.ofList (c :: word)) true :: tokens) rest := by
  obtain ⟨hgap, -, -⟩ := not_ends_of_isWordChar (hword c List.mem_cons_self)
  have hhash : c ≠ '#' := by
    rintro rfl
    exact absurd (hword _ List.mem_cons_self) (by decide)
  rw [List.cons_append] at h
  obtain ⟨passed, t, hahead, hready⟩ := h.exists_ready hgap hhash
  obtain ⟨u, hread, hcursor, hu⟩ := readPlain_of_ready hword hready h.level hends
  rw [h.tokens] at hu
  refine ⟨u, hready.leads hahead ((readToken_word hready.ahead ?_).trans hread) ?_, hu⟩
  · refine hbegins.imp_right fun hminus => ⟨hminus.1, ?_⟩
    obtain ⟨e, he, hdigit⟩ := hminus.2
    exact ⟨e, by rw [List.head?_append, he]; rfl, hdigit⟩
  · rw [hcursor, hends.eq]
    simp only [List.length_cons, List.length_append]
    omega

theorem At.key {key : SpelledKey} (hkey : key.Portable) {rest : List Char}
    (h : At s (level + 1) tokens (key.chars unifyBreaks ++ rest)) (hallowed : s.keyAllowed = true) :
    ∃ u, s.Leads u ∧ At u (level + 1) (key.tokens.reverse ++ tokens) rest := by
  have hblank : ∀ c ∈ key.behindKey.chars, c = ' ' ∨ c = '\t' := by
    intro c hc
    rcases key.behindKey.blank_or_break c hc with rfl | rfl | rfl | rfl
    · exact .inl rfl
    · exact .inr rfl
    · exact absurd hc hkey.sameLine.1
    · exact absurd hc hkey.sameLine.2
  have hplain : ∀ c ∈ key.behindKey.chars, c ≠ '\r' ∧ c ≠ '\u0085' := by
    intro c hc
    rcases hblank c hc with rfl | rfl
    · decide
    · decide
  have hchars : key.chars unifyBreaks ++ rest = Json.literal key.pieces ++
      (key.behindKey.chars ++ ':' :: (unifyBreaks key.behindColon.chars ++ rest)) := by
    rw [SpelledKey.chars, List.append_assoc, List.append_assoc, unifyBreaks_of_inLine hplain]
    rfl
  rw [hchars] at h
  obtain ⟨u, hu, hat, position, hcursor, hcandidate⟩ := h.literal hkey.pieces
  have hinLine : ∀ c ∈ key.behindKey.chars, isBreak c = false ∧ isGap c = true := by
    intro c hc
    rcases hblank c hc with rfl | rfl
    · decide
    · decide
  obtain ⟨v, hready⟩ := Layout.exists_ready hat.calm
    (':' :: (unifyBreaks key.behindColon.chars ++ rest)) (by rw [hcursor])
    (fun c hc => (hinLine c hc).2)
    (fun c hc => Option.some.inj hc ▸ by decide) (.inl (inFlow_of_level hat.level))
  have hfresh := hready.candidate _ (hcandidate hallowed) (by
    rw [hready.cursor, hcursor, foldl_past_of_inLine fun c hc => (hinLine c hc).1]
    have := hkey.near
    simp [Candidate.isStale]
    omega)
  obtain ⟨w, hread, hmore, hw⟩ := readValue_of_ready hready hat.level hfresh hat.tokens
  have hflow : v.inFlow = true := inFlow_of_level (hready.level.trans hat.level)
  have hw' := hready.leads (by rw [hcursor]) ((readToken_colon hready.ahead hflow).trans hread)
    (hmore ▸ Nat.le_refl _)
  exact ⟨w, hu.trans hw', hw.skip key.behindColon.isGap_of_mem_unifyBreaks⟩

end Steps

/-! ## Whole spellings -/

/-- What follows a value inside a flow collection. -/
theorem endsWord_blanks (after : Blanks) {c : Char} (hc : c = ',' ∨ c = ']' ∨ c = '\x7d')
    (more : List Char) :
    EndsWord (unifyBreaks after.chars ++ c :: more) (unifyBreaks after.chars) c more :=
  ⟨rfl, after.isGap_of_mem_unifyBreaks, hc⟩

theorem exists_beginsWord {cs : List Char} (h : Json.BeginsNumber cs) :
    ∃ c more, cs = c :: more ∧ BeginsWord c more := by
  rcases h with ⟨c, hc, hdigit⟩ | ⟨c, more, rfl, hdigit⟩
  · obtain ⟨more, rfl⟩ := List.head?_eq_some_iff.mp hc
    exact ⟨c, more, rfl, .inl (by rw [Char.isAlphanum, hdigit, Bool.or_true])⟩
  · exact ⟨'-', c :: more, rfl, .inr ⟨rfl, c, rfl, hdigit⟩⟩

mutual

/-- A value inside a flow collection is cut into its tokens.  What stands behind it matters only to
a plain scalar, which it has to end. -/
theorem leads_spelling : ∀ (v : Spelling) {s : Layout} {level : Nat} {tokens : List Token}
    {rest blanks ahead : List Char} {d : Char}, v.Portable →
      At s (level + 1) tokens (v.chars unifyBreaks ++ rest) → EndsWord rest blanks d ahead →
      ∃ u, s.Leads u ∧ At u (level + 1) (v.tokens.reverse ++ tokens) rest
  | .null, s, level, tokens, rest, blanks, ahead, d, _, h, hends =>
      h.word (List.all_eq_true.mp (by decide)) (.inl (by decide)) hends
  | .bool true, s, level, tokens, rest, blanks, ahead, d, _, h, hends =>
      h.word (List.all_eq_true.mp (by decide)) (.inl (by decide)) hends
  | .bool false, s, level, tokens, rest, blanks, ahead, d, _, h, hends =>
      h.word (List.all_eq_true.mp (by decide)) (.inl (by decide)) hends
  | .number numeral, s, level, tokens, rest, blanks, ahead, d, _, h, hends => by
      obtain ⟨hbegins, hchars, -⟩ := numeral.reads_append
      obtain ⟨c, word, hword, hc⟩ := exists_beginsWord hbegins
      have htokens : Spelling.tokens (.number numeral) =
          [.scalar (String.ofList (c :: word)) true] := by
        rw [Spelling.tokens, hword]
      rw [Spelling.chars, hword] at h
      rw [hword] at hchars
      rw [htokens]
      exact h.word (fun e he => isWordChar_of_isNumeralChar (hchars e he)) hc hends
  | .string pieces, s, level, tokens, rest, blanks, ahead, d, hportable, h, hends => by
      obtain ⟨u, hleads, hu, -⟩ := h.literal hportable
      exact ⟨u, hleads, hu⟩
  | .emptyArray inside, s, level, tokens, rest, blanks, ahead, d, _, h, hends => by
      rw [Spelling.chars, List.cons_append, List.append_assoc] at h
      obtain ⟨u, hsu, -, hu⟩ := h.openFlow .openArray
      obtain ⟨v, huv, -, -, hv⟩ := (hu.skip inside.isGap_of_mem_unifyBreaks).closeFlow .closeArray
      exact ⟨v, hsu.trans huv, hv⟩
  | .array before items, s, level, tokens, rest, blanks, ahead, d, hportable, h, hends => by
      rw [Spelling.chars, List.cons_append, List.append_assoc] at h
      obtain ⟨u, hsu, -, hu⟩ := h.openFlow .openArray
      obtain ⟨v, huv, -, -, hv⟩ :=
        leads_items items hportable (hu.skip before.isGap_of_mem_unifyBreaks)
      refine ⟨v, hsu.trans huv, ?_⟩
      rw [Spelling.tokens, List.reverse_cons, List.append_assoc]
      exact hv
  | .emptyObject inside, s, level, tokens, rest, blanks, ahead, d, _, h, hends => by
      rw [Spelling.chars, List.cons_append, List.append_assoc] at h
      obtain ⟨u, hsu, -, hu⟩ := h.openFlow .openObject
      obtain ⟨v, huv, -, -, hv⟩ := (hu.skip inside.isGap_of_mem_unifyBreaks).closeFlow .closeObject
      exact ⟨v, hsu.trans huv, hv⟩
  | .object before members, s, level, tokens, rest, blanks, ahead, d, hportable, h, hends => by
      rw [Spelling.chars, List.cons_append, List.append_assoc] at h
      obtain ⟨u, hsu, hkey, hu⟩ := h.openFlow .openObject
      obtain ⟨v, huv, -, -, hv⟩ :=
        leads_members members hportable (hu.skip before.isGap_of_mem_unifyBreaks) hkey
      refine ⟨v, hsu.trans huv, ?_⟩
      rw [Spelling.tokens, List.reverse_cons, List.append_assoc]
      exact hv

theorem leads_items : ∀ (items : SpelledItems) {s : Layout} {level : Nat} {tokens : List Token}
    {rest : List Char}, items.Portable →
      At s (level + 1) tokens (items.chars unifyBreaks ++ rest) →
      ∃ u, s.Leads u ∧ u.keyAllowed = false ∧ u.cursor.ahead = rest ∧
        At u level (items.tokens.reverse ++ tokens) rest
  | .last item after, s, level, tokens, rest, hportable, h => by
      rw [SpelledItems.chars, List.append_assoc, List.append_assoc] at h
      obtain ⟨u, hsu, hu⟩ :=
        leads_spelling item hportable h (endsWord_blanks after (.inr (.inl rfl)) rest)
      obtain ⟨v, huv, hkey, hahead, hv⟩ :=
        (hu.skip after.isGap_of_mem_unifyBreaks).closeFlow .closeArray
      refine ⟨v, hsu.trans huv, hkey, hahead, ?_⟩
      rw [SpelledItems.tokens, List.reverse_append, List.append_assoc]
      exact hv
  | .more item after before items, s, level, tokens, rest, hportable, h => by
      rw [SpelledItems.chars, List.append_assoc, List.append_assoc, List.cons_append,
        List.append_assoc] at h
      obtain ⟨u, hsu, hu⟩ := leads_spelling item hportable.1 h (endsWord_blanks after (.inl rfl) _)
      obtain ⟨v, huv, -, hv⟩ := (hu.skip after.isGap_of_mem_unifyBreaks).comma
      obtain ⟨w, hvw, hkey, hahead, hw⟩ :=
        leads_items items hportable.2 (hv.skip before.isGap_of_mem_unifyBreaks)
      refine ⟨w, (hsu.trans huv).trans hvw, hkey, hahead, ?_⟩
      rw [SpelledItems.tokens, List.reverse_append, List.reverse_cons, List.append_assoc,
        List.append_assoc]
      exact hw

theorem leads_members : ∀ (members : SpelledMembers) {s : Layout} {level : Nat}
    {tokens : List Token} {rest : List Char}, members.Portable →
      At s (level + 1) tokens (members.chars unifyBreaks ++ rest) → s.keyAllowed = true →
      ∃ u, s.Leads u ∧ u.keyAllowed = false ∧ u.cursor.ahead = rest ∧
        At u level (members.tokens.reverse ++ tokens) rest
  | .last key value after, s, level, tokens, rest, hportable, h, hallowed => by
      rw [SpelledMembers.chars, List.append_assoc, List.append_assoc, List.append_assoc] at h
      obtain ⟨u, hsu, hu⟩ := h.key hportable.1 hallowed
      obtain ⟨v, huv, hv⟩ :=
        leads_spelling value hportable.2 hu (endsWord_blanks after (.inr (.inr rfl)) rest)
      obtain ⟨w, hvw, hkey, hahead, hw⟩ :=
        (hv.skip after.isGap_of_mem_unifyBreaks).closeFlow .closeObject
      refine ⟨w, (hsu.trans huv).trans hvw, hkey, hahead, ?_⟩
      rw [SpelledMembers.tokens, List.reverse_append, List.reverse_append, List.append_assoc,
        List.append_assoc]
      exact hw
  | .more key value after before members, s, level, tokens, rest, hportable, h, hallowed => by
      rw [SpelledMembers.chars, List.append_assoc, List.append_assoc, List.append_assoc,
        List.cons_append, List.append_assoc] at h
      obtain ⟨u, hsu, hu⟩ := h.key hportable.1.1 hallowed
      obtain ⟨v, huv, hv⟩ :=
        leads_spelling value hportable.1.2 hu (endsWord_blanks after (.inl rfl) _)
      obtain ⟨w, hvw, hallowed', hw⟩ := (hv.skip after.isGap_of_mem_unifyBreaks).comma
      obtain ⟨x, hwx, hkey, hahead, hx⟩ :=
        leads_members members hportable.2 (hw.skip before.isGap_of_mem_unifyBreaks) hallowed'
      refine ⟨x, ((hsu.trans huv).trans hvw).trans hwx, hkey, hahead, ?_⟩
      rw [SpelledMembers.tokens, List.reverse_append, List.reverse_append, List.reverse_cons,
        List.append_assoc, List.append_assoc, List.append_assoc]
      exact hx

end

end Layout

end Yaml

end Rollout
