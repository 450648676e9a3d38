import Rollout.Proofs.Yaml.Tokens

/-!
# Cutting a whole JSON text into tokens

Before it cuts a text into tokens, YAML checks its characters and unifies its line breaks.  The
characters of a portable script are all allowed, and only its blanks hold breaks: everything else is
*settled*, so that the unified text is the script with unified blanks (`unifyBreaks_script`).

The first bracket leads into a flow collection, the last one out of it, and behind it the text ends.
So the tokens of a script that is a container are those of its value (`ofText?_script`).  Outside
the brackets a block could begin, which is why tabs are told apart there.
-/

namespace Rollout

open Json (Piece literal Spelling SpelledItems SpelledMembers SpelledKey Blanks Script)

namespace Yaml

/-! ## Characters -/

/-- A character that a text may hold and that stands for itself, whatever is around it. -/
def isSettled (c : Char) : Bool := isAllowed c && c ≠ '\r' && c ≠ '\u0085'

theorem isSettled_of_printable {c : Char} (h : 0x20 ≤ c.toNat ∧ c.toNat ≤ 0x7e) :
    isSettled c = true := by
  have hne : ∀ b : Char, ¬(0x20 ≤ b.toNat ∧ b.toNat ≤ 0x7e) → c ≠ b := by
    rintro b hb rfl
    exact hb h
  simp [isSettled, isAllowed, h, hne '\r' (by decide), hne '\u0085' (by decide)]

theorem isSettled_of_between {a b c : Char} (hab : 0x20 ≤ a.toNat ∧ b.toNat ≤ 0x7e)
    (h : a.toNat ≤ c.toNat ∧ c.toNat ≤ b.toNat) : isSettled c = true :=
  isSettled_of_printable ⟨Nat.le_trans hab.1 h.1, Nat.le_trans h.2 hab.2⟩

theorem isSettled_of_isWordChar {c : Char} (h : isWordChar c = true) : isSettled c = true := by
  have hletters : "nulltruefalse".toList.all isSettled = true := by decide
  simp only [isWordChar, Json.isNumeralChar, Bool.or_eq_true, decide_eq_true_eq] at h
  rcases h with h | ((((h | rfl) | rfl) | rfl) | rfl) | rfl
  · exact List.all_eq_true.mp hletters c (List.contains_iff_mem.mp h)
  · exact isSettled_of_between (by decide) (Char.isDigit_iff_toNat.mp h)
  all_goals decide

theorem isSettled_of_isDigitOf {c : Char} (h : isDigitOf 16 c = true) : isSettled c = true := by
  have hle : ∀ {a b : Char}, a ≤ c ∧ c ≤ b → a.toNat ≤ c.toNat ∧ c.toNat ≤ b.toNat := by
    intro a b hc
    rw [Char.le_def, Char.le_def, UInt32.le_iff_toNat_le, UInt32.le_iff_toNat_le] at hc
    exact hc
  unfold isDigitOf digitValue? at h
  dsimp only at h
  split at h
  next hdecimal => exact isSettled_of_between (by decide) (hle hdecimal)
  next =>
  split at h
  next hlower => exact isSettled_of_between (by decide) (hle hlower)
  next =>
  split at h
  next hupper => exact isSettled_of_between (by decide) (hle hupper)
  next => cases h

theorem isSettled_of_portable {piece : Piece} (h : piece.Portable) :
    ∀ c ∈ piece.chars, isSettled c = true := by
  cases piece with
  | plain c isPlain =>
    refine List.forall_mem_singleton.mpr ?_
    have hreturn : c ≠ '\r' := by
      rintro rfl
      exact absurd isPlain.2.2 (by decide)
    simp [isSettled, h.1, h.2.1, hreturn]
  | short letter c stands =>
    refine List.forall_mem_cons.mpr ⟨by decide, List.forall_mem_singleton.mpr ?_⟩
    unfold Json.shortEscape? at stands
    split at stands
    all_goals first | decide | cases stands
  | code escape c stands =>
    have hdigits := List.all_eq_true.mp (digits_of_stands stands h).1
    exact List.forall_mem_cons.mpr ⟨by decide, List.forall_mem_cons.mpr
      ⟨by decide, fun d hd => isSettled_of_isDigitOf (hdigits d hd)⟩⟩

theorem isSettled_of_mem_literal {pieces : List Piece} (h : ∀ piece ∈ pieces, piece.Portable) :
    ∀ c ∈ literal pieces, isSettled c = true := by
  intro c hc
  rw [literal, List.mem_cons, List.mem_append, List.mem_singleton] at hc
  rcases hc with rfl | hc | rfl
  · decide
  · obtain ⟨piece, hpiece, hc⟩ := List.mem_flatMap.mp hc
    exact isSettled_of_portable (h piece hpiece) c hc
  · decide

theorem isSettled_of_mem_numeral (numeral : Json.Numeral) :
    ∀ c ∈ numeral.chars, isSettled c = true := fun c hc =>
  isSettled_of_isWordChar (isWordChar_of_isNumeralChar (numeral.reads_append.2.1 c hc))

/-! ## Allowed characters -/

theorem isAllowed_of_isSettled {c : Char} (h : isSettled c = true) : isAllowed c = true := by
  simp only [isSettled, Bool.and_eq_true] at h
  exact h.1.1

theorem isAllowed_of_mem_blanks (blanks : Blanks) : ∀ c ∈ blanks.chars, isAllowed c = true := by
  intro c hc
  rcases blanks.blank_or_break c hc with rfl | rfl | rfl | rfl <;> decide

theorem isAllowed_of_mem_literal {pieces : List Piece} (h : ∀ piece ∈ pieces, piece.Portable) :
    ∀ c ∈ literal pieces, isAllowed c = true :=
  fun c hc => isAllowed_of_isSettled (isSettled_of_mem_literal h c hc)

theorem isAllowed_of_mem_key {key : SpelledKey} (h : key.Portable) :
    ∀ c ∈ key.chars id, isAllowed c = true := by
  simp only [SpelledKey.chars, id, List.forall_mem_append, List.forall_mem_cons]
  exact ⟨isAllowed_of_mem_literal h.pieces, isAllowed_of_mem_blanks key.behindKey, by decide,
    isAllowed_of_mem_blanks key.behindColon⟩

mutual

theorem isAllowed_of_mem_spelling : ∀ {v : Spelling}, v.Portable →
    ∀ c ∈ v.chars id, isAllowed c = true
  | .null, _ => List.all_eq_true.mp (by decide)
  | .bool true, _ => List.all_eq_true.mp (by decide)
  | .bool false, _ => List.all_eq_true.mp (by decide)
  | .number numeral, _ => fun c hc => isAllowed_of_isSettled (isSettled_of_mem_numeral numeral c hc)
  | .string _, h => isAllowed_of_mem_literal h
  | .emptyArray inside, _ => by
      simp only [Spelling.chars, id, List.forall_mem_append, List.forall_mem_cons]
      exact ⟨by decide, isAllowed_of_mem_blanks inside, by decide, List.forall_mem_nil _⟩
  | .array before _, h => by
      simp only [Spelling.chars, id, List.forall_mem_append, List.forall_mem_cons]
      exact ⟨by decide, isAllowed_of_mem_blanks before, isAllowed_of_mem_items h⟩
  | .emptyObject inside, _ => by
      simp only [Spelling.chars, id, List.forall_mem_append, List.forall_mem_cons]
      exact ⟨by decide, isAllowed_of_mem_blanks inside, by decide, List.forall_mem_nil _⟩
  | .object before _, h => by
      simp only [Spelling.chars, id, List.forall_mem_append, List.forall_mem_cons]
      exact ⟨by decide, isAllowed_of_mem_blanks before, isAllowed_of_mem_members h⟩

theorem isAllowed_of_mem_items : ∀ {items : SpelledItems}, items.Portable →
    ∀ c ∈ items.chars id, isAllowed c = true
  | .last _ after, h => by
      simp only [SpelledItems.chars, id, List.forall_mem_append]
      exact ⟨isAllowed_of_mem_spelling h, isAllowed_of_mem_blanks after,
        List.forall_mem_singleton.mpr (by decide)⟩
  | .more _ after before _, h => by
      simp only [SpelledItems.chars, id, List.forall_mem_append, List.forall_mem_cons]
      exact ⟨isAllowed_of_mem_spelling h.1, isAllowed_of_mem_blanks after, by decide,
        isAllowed_of_mem_blanks before, isAllowed_of_mem_items h.2⟩

theorem isAllowed_of_mem_members : ∀ {members : SpelledMembers}, members.Portable →
    ∀ c ∈ members.chars id, isAllowed c = true
  | .last _ _ after, h => by
      simp only [SpelledMembers.chars, id, List.forall_mem_append]
      exact ⟨isAllowed_of_mem_key h.1, isAllowed_of_mem_spelling h.2, isAllowed_of_mem_blanks after,
        List.forall_mem_singleton.mpr (by decide)⟩
  | .more _ _ after before _, h => by
      simp only [SpelledMembers.chars, id, List.forall_mem_append, List.forall_mem_cons]
      exact ⟨isAllowed_of_mem_key h.1.1, isAllowed_of_mem_spelling h.1.2,
        isAllowed_of_mem_blanks after, by decide, isAllowed_of_mem_blanks before,
        isAllowed_of_mem_members h.2⟩

end

/-! ## Unified breaks -/

theorem unifyBreaks_of_isSettled {cs : List Char} (h : ∀ c ∈ cs, isSettled c = true)
    (rest : List Char) : unifyBreaks (cs ++ rest) = cs ++ unifyBreaks rest := by
  refine unifyBreaks_append_of_inLine (fun c hc => ?_) rest
  have hc := h c hc
  simp only [isSettled, Bool.and_eq_true, decide_eq_true_eq] at hc
  exact ⟨hc.1.2, hc.2⟩

theorem unifyBreaks_settled {c : Char} (h : isSettled c = true) (rest : List Char) :
    unifyBreaks (c :: rest) = c :: unifyBreaks rest :=
  unifyBreaks_of_isSettled (List.forall_mem_singleton.mpr h) rest

/-- An indicator keeps what is before it apart from what is behind it. -/
theorem unifyBreaks_indicator {c : Char} (h : isSettled c = true) (hfeed : c ≠ '\n')
    (cs rest : List Char) :
    unifyBreaks (cs ++ c :: rest) = unifyBreaks cs ++ c :: unifyBreaks rest := by
  rw [unifyBreaks_append hfeed, unifyBreaks_settled h]

/-- So does the beginning of a value. -/
theorem unifyBreaks_ahead {c : Char} (h : Json.isBlank c = false) (cs rest : List Char) :
    unifyBreaks (cs ++ c :: rest) = unifyBreaks cs ++ unifyBreaks (c :: rest) := by
  refine unifyBreaks_append ?_ rest cs
  rintro rfl
  cases h

theorem unifyBreaks_items (before : Blanks) (items : SpelledItems) (rest : List Char) :
    unifyBreaks (before.chars ++ (items.chars id ++ rest)) =
      unifyBreaks before.chars ++ unifyBreaks (items.chars id ++ rest) := by
  obtain ⟨c, more, hchars, hblank, -⟩ := items.exists_chars_eq_cons id
  rw [hchars]
  exact unifyBreaks_ahead hblank _ _

theorem unifyBreaks_members (before : Blanks) (members : SpelledMembers) (rest : List Char) :
    unifyBreaks (before.chars ++ (members.chars id ++ rest)) =
      unifyBreaks before.chars ++ unifyBreaks (members.chars id ++ rest) := by
  obtain ⟨more, hchars⟩ := members.exists_chars_eq_cons id
  rw [hchars]
  exact unifyBreaks_append (by decide) _ _

theorem unifyBreaks_key {key : SpelledKey} (h : key.Portable) (value : Spelling)
    (rest : List Char) :
    unifyBreaks (key.chars id ++ (value.chars id ++ rest)) =
      key.chars unifyBreaks ++ unifyBreaks (value.chars id ++ rest) := by
  obtain ⟨c, more, hchars, hblank, -⟩ := value.exists_chars_eq_cons id
  have hliteral := unifyBreaks_of_isSettled (isSettled_of_mem_literal h.pieces)
    (key.behindKey.chars ++ ':' :: (key.behindColon.chars ++ (value.chars id ++ rest)))
  rw [unifyBreaks_indicator (by decide) (by decide), hchars, List.cons_append,
    unifyBreaks_ahead hblank] at hliteral
  rw [hchars]
  simpa [SpelledKey.chars] using hliteral

mutual

theorem unifyBreaks_spelling : ∀ {v : Spelling}, v.Portable → ∀ rest : List Char,
    unifyBreaks (v.chars id ++ rest) = v.chars unifyBreaks ++ unifyBreaks rest
  | .null, _, _ => unifyBreaks_of_isSettled (List.all_eq_true.mp (by decide)) _
  | .bool true, _, _ => unifyBreaks_of_isSettled (List.all_eq_true.mp (by decide)) _
  | .bool false, _, _ => unifyBreaks_of_isSettled (List.all_eq_true.mp (by decide)) _
  | .number numeral, _, _ => unifyBreaks_of_isSettled (isSettled_of_mem_numeral numeral) _
  | .string _, h, _ => unifyBreaks_of_isSettled (isSettled_of_mem_literal h) _
  | .emptyArray inside, _, rest => by
      have hopen := unifyBreaks_settled (c := '[') (by decide) (inside.chars ++ ']' :: rest)
      rw [unifyBreaks_indicator (by decide) (by decide)] at hopen
      simpa [Spelling.chars] using hopen
  | .array before items, h, rest => by
      have hopen := unifyBreaks_settled (c := '[') (by decide)
        (before.chars ++ (items.chars id ++ rest))
      rw [unifyBreaks_items, unifyBreaks_spelledItems h] at hopen
      simpa [Spelling.chars] using hopen
  | .emptyObject inside, _, rest => by
      have hopen := unifyBreaks_settled (c := '\x7b') (by decide) (inside.chars ++ '\x7d' :: rest)
      rw [unifyBreaks_indicator (by decide) (by decide)] at hopen
      simpa [Spelling.chars] using hopen
  | .object before members, h, rest => by
      have hopen := unifyBreaks_settled (c := '\x7b') (by decide)
        (before.chars ++ (members.chars id ++ rest))
      rw [unifyBreaks_members, unifyBreaks_spelledMembers h] at hopen
      simpa [Spelling.chars] using hopen

theorem unifyBreaks_spelledItems : ∀ {items : SpelledItems}, items.Portable → ∀ rest : List Char,
    unifyBreaks (items.chars id ++ rest) = items.chars unifyBreaks ++ unifyBreaks rest
  | .last item after, h, rest => by
      have hitem := unifyBreaks_spelling h (after.chars ++ ']' :: rest)
      rw [unifyBreaks_indicator (by decide) (by decide)] at hitem
      simpa [SpelledItems.chars] using hitem
  | .more item after before items, h, rest => by
      have hitem := unifyBreaks_spelling h.1
        (after.chars ++ ',' :: (before.chars ++ (items.chars id ++ rest)))
      rw [unifyBreaks_indicator (by decide) (by decide), unifyBreaks_items,
        unifyBreaks_spelledItems h.2] at hitem
      simpa [SpelledItems.chars] using hitem

theorem unifyBreaks_spelledMembers : ∀ {members : SpelledMembers}, members.Portable →
    ∀ rest : List Char,
      unifyBreaks (members.chars id ++ rest) = members.chars unifyBreaks ++ unifyBreaks rest
  | .last key value after, h, rest => by
      have hvalue := unifyBreaks_spelling h.2 (after.chars ++ '\x7d' :: rest)
      rw [unifyBreaks_indicator (by decide) (by decide)] at hvalue
      have hkey := unifyBreaks_key h.1 value (after.chars ++ '\x7d' :: rest)
      rw [hvalue] at hkey
      simpa [SpelledMembers.chars] using hkey
  | .more key value after before members, h, rest => by
      have hvalue := unifyBreaks_spelling h.1.2
        (after.chars ++ ',' :: (before.chars ++ (members.chars id ++ rest)))
      rw [unifyBreaks_indicator (by decide) (by decide), unifyBreaks_members,
        unifyBreaks_spelledMembers h.2] at hvalue
      have hkey := unifyBreaks_key h.1.1 value
        (after.chars ++ ',' :: (before.chars ++ (members.chars id ++ rest)))
      rw [hvalue] at hkey
      simpa [SpelledMembers.chars] using hkey

end

/-! ## Whole texts -/

namespace Layout

/-- The first bracket of a text. -/
theorem start_openFlow {c : Char} {token : Token} (hc : Indicates c (openFlow token))
    {gap more : List Char} (hgap : ∀ d ∈ gap, isGap d = true) (htab : '\t' ∉ gap) (p : Position) :
    ∃ u, (start ⟨gap ++ c :: more, p⟩).Leads u ∧ u.keyAllowed = true ∧ At u 1 [token] more := by
  have hcalm : (start ⟨gap ++ c :: more, p⟩).Calm :=
    ⟨rfl, rfl, rfl, (by simp [start]), List.forall_mem_nil _⟩
  obtain ⟨t, hready⟩ := Layout.exists_ready hcalm (c :: more) rfl hgap
    (fun d hd => Option.some.inj hd ▸ hc.ne) (.inr htab)
  obtain ⟨u, hread, hkey, hmore, hu⟩ := openFlow_of_ready hready token
  exact ⟨u, hready.leads rfl ((readToken_of_indicates hc hready.ahead).trans hread)
    (hmore ▸ Nat.le_refl _), hkey, hu⟩

/-- Behind the last bracket only blanks may stand. -/
theorem readAll_end {s : Layout} {tokens : List Token} {gap : List Char} (h : At s 0 tokens gap)
    (hahead : s.cursor.ahead = gap) (hkey : s.keyAllowed = false)
    (hgap : ∀ d ∈ gap, isGap d = true) (htab : '\t' ∉ gap.dropWhile fun c => !isBreak c)
    {fuel : List Char} (hfuel : gap.length < fuel.length) :
    readAll fuel s = some tokens.reverse := by
  have htabs : s.TabsFine gap := .inr (by rw [hkey]; exact htab)
  obtain ⟨t, hready⟩ := Layout.exists_ready h.calm [] (by rw [hahead, List.append_nil]) hgap
    (fun d hd => by cases hd) htabs
  cases fuel with
  | nil => exact absurd hfuel (Nat.not_lt_zero _)
  | cons x fuel => rw [hready.reads, h.tokens]

/-- A container between blanks is cut into its tokens. -/
theorem leads_container {v : Spelling} (hv : v.Portable) (hcontainer : 0 < v.document.depth)
    {gap : List Char} (hgap : ∀ d ∈ gap, isGap d = true) (htab : '\t' ∉ gap) (rest : List Char)
    (p : Position) :
    ∃ u, (start ⟨gap ++ (v.chars unifyBreaks ++ rest), p⟩).Leads u ∧ u.keyAllowed = false ∧
      u.cursor.ahead = rest ∧ At u 0 v.tokens.reverse rest := by
  cases v with
  | emptyArray inside =>
    rw [Spelling.chars, List.cons_append, List.append_assoc]
    obtain ⟨u, hsu, -, hu⟩ := start_openFlow .openArray hgap htab p
    obtain ⟨v, huv, hv⟩ := (hu.skip inside.isGap_of_mem_unifyBreaks).closeFlow .closeArray
    exact ⟨v, hsu.trans huv, hv⟩
  | array before items =>
    rw [Spelling.chars, List.cons_append, List.append_assoc]
    obtain ⟨u, hsu, -, hu⟩ := start_openFlow .openArray hgap htab p
    obtain ⟨v, huv, hv⟩ := leads_items items hv (hu.skip before.isGap_of_mem_unifyBreaks)
    refine ⟨v, hsu.trans huv, ?_⟩
    rw [Spelling.tokens, List.reverse_cons]
    exact hv
  | emptyObject inside =>
    rw [Spelling.chars, List.cons_append, List.append_assoc]
    obtain ⟨u, hsu, -, hu⟩ := start_openFlow .openObject hgap htab p
    obtain ⟨v, huv, hv⟩ := (hu.skip inside.isGap_of_mem_unifyBreaks).closeFlow .closeObject
    exact ⟨v, hsu.trans huv, hv⟩
  | object before members =>
    rw [Spelling.chars, List.cons_append, List.append_assoc]
    obtain ⟨u, hsu, hkey, hu⟩ := start_openFlow .openObject hgap htab p
    obtain ⟨v, huv, hv⟩ := leads_members members hv (hu.skip before.isGap_of_mem_unifyBreaks) hkey
    refine ⟨v, hsu.trans huv, ?_⟩
    rw [Spelling.tokens, List.reverse_cons]
    exact hv
  | _ => cases hcontainer

end Layout

theorem unifyBreaks_script {script : Script} (h : script.Portable) :
    unifyBreaks (script.chars id) = script.chars unifyBreaks := by
  have hvalue := unifyBreaks_spelling h.value script.after.chars
  obtain ⟨c, more, hchars, hblank, -⟩ := script.value.exists_chars_eq_cons id
  have hbefore := unifyBreaks_ahead hblank script.before.chars (more ++ script.after.chars)
  rw [← List.cons_append, ← hchars, hvalue] at hbefore
  exact hbefore

theorem isAllowed_of_mem_script {script : Script} (h : script.Portable) :
    ∀ c ∈ script.chars id, isAllowed c = true := by
  simp only [Script.chars, id, List.forall_mem_append]
  exact ⟨isAllowed_of_mem_blanks script.before, isAllowed_of_mem_spelling h.value,
    isAllowed_of_mem_blanks script.after⟩

/-- Tabs behind a value remain on its line. -/
theorem not_mem_dropWhile_unifyBreaks {blanks : Blanks}
    (h : '\t' ∉ blanks.chars.dropWhile fun c => !(c = '\n' || c = '\r')) :
    '\t' ∉ (unifyBreaks blanks.chars).dropWhile fun c => !isBreak c := by
  have hsplit := (List.takeWhile_append_dropWhile
    (p := fun c => !(decide (c = '\n') || decide (c = '\r'))) (l := blanks.chars)).symm
  have hline : ∀ c ∈ blanks.chars.takeWhile fun c => !(decide (c = '\n') || decide (c = '\r')),
      (c ≠ '\r' ∧ c ≠ '\u0085') ∧ isBreak c = false := by
    intro c hc
    have hplain := List.all_eq_true.mp List.all_takeWhile c hc
    rcases blanks.blank_or_break c ((List.takeWhile_sublist _).subset hc) with rfl | rfl | rfl | rfl
    · decide
    · decide
    · cases hplain
    · cases hplain
  intro hmem
  rw [hsplit, unifyBreaks_append_of_inLine fun c hc => (hline c hc).1,
    List.dropWhile_append_of_pos fun c hc => by rw [(hline c hc).2]; rfl] at hmem
  rcases mem_unifyBreaks ((List.dropWhile_sublist _).subset hmem) with heq | ⟨hmem, -⟩
  · cases heq
  · exact h hmem

/-- No byte order mark begins a container or the blanks in front of it. -/
theorem ofChars_script {script : Script} (hcontainer : 0 < script.value.document.depth) :
    Cursor.ofChars (script.chars unifyBreaks) = ⟨script.chars unifyBreaks, ⟨0, 0⟩⟩ := by
  have hvalue : ∀ c ∈ (script.value.chars unifyBreaks).head?, c ≠ '\ufeff' := by
    intro c hc
    cases hv : script.value with
    | emptyArray | array | emptyObject | object =>
      rw [hv] at hc
      exact Option.some.inj hc ▸ by decide
    | _ =>
      rw [hv] at hcontainer
      cases hcontainer
  have hhead : (script.chars unifyBreaks).head? ≠ some '\ufeff' := by
    intro hmark
    rw [Script.chars, List.head?_append] at hmark
    cases hblank : (unifyBreaks script.before.chars).head? with
    | some b =>
      rw [hblank] at hmark
      have hgap := script.before.isGap_of_mem_unifyBreaks b (List.mem_of_mem_head? hblank)
      rw [Option.some.inj hmark] at hgap
      cases hgap
    | none =>
      rw [hblank, Option.none_or, List.head?_append] at hmark
      obtain ⟨c, more, hchars, -⟩ := script.value.exists_chars_eq_cons unifyBreaks
      rw [hchars] at hmark hvalue
      exact hvalue c rfl (Option.some.inj hmark)
  unfold Cursor.ofChars
  split
  next heq => exact absurd (congrArg List.head? heq) hhead
  next => rfl

/-- The tokens of a script that is a container. -/
theorem ofText?_script {script : Script} (h : script.Portable)
    (hcontainer : 0 < script.value.document.depth) {text : String}
    (htext : script.chars id = text.toList) : Token.ofText? text = some script.value.tokens := by
  have hallowed : text.toList.all isAllowed = true :=
    List.all_eq_true.mpr (htext ▸ isAllowed_of_mem_script h)
  have htab : '\t' ∉ unifyBreaks script.before.chars := by
    intro hmem
    rcases mem_unifyBreaks hmem with heq | ⟨hmem, -⟩
    · cases heq
    · exact h.before hmem
  obtain ⟨u, hleads, hkey, hahead, hu⟩ := Layout.leads_container h.value hcontainer
    script.before.isGap_of_mem_unifyBreaks htab (unifyBreaks script.after.chars) ⟨0, 0⟩
  obtain ⟨fuel, hfuel, hread⟩ := hleads (' ' :: script.chars unifyBreaks) (Nat.lt_succ_self _)
  rw [Token.ofText?, if_pos hallowed, ← htext, unifyBreaks_script h, ofChars_script hcontainer]
  refine hread.trans ?_
  rw [Layout.readAll_end hu hahead hkey script.after.isGap_of_mem_unifyBreaks
    (not_mem_dropWhile_unifyBreaks h.after) (hahead ▸ hfuel), List.reverse_reverse]

end Yaml
end Rollout
