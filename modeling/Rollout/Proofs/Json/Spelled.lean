import Mathlib.Logic.Basic
import Rollout.Proofs.Json.Spelling

/-!
# Reading spelled texts

The reader takes the text of a spelling for its document.  It fails only where containers nest too
deeply, and that is told by the document (`readValue_spelling`).  Conversely, whatever the reader
gets through was spelled (`spelled_ahead`): each step takes one production of the grammar, and the
blanks that it passes over are those of the spelling.

A `Script` is a spelling with the blanks around it.  A text reads exactly if a script writes it
whose containers do not nest too deeply (`ofText_eq_ok_iff`).
-/

namespace Rollout.Json

/-! ## Reading a spelling -/

/-- A value begins with a character that is no blank and closes no array. -/
theorem Spelling.exists_chars_eq_cons (gap : List Char → List Char) (s : Spelling) :
    ∃ c more, s.chars gap = c :: more ∧ isBlank c = false ∧ c ≠ ']' := by
  cases s with
  | null => exact ⟨_, _, rfl, by decide, by decide⟩
  | bool value => cases value <;> exact ⟨_, _, rfl, by decide, by decide⟩
  | number numeral =>
    rcases numeral.reads_append.1 with ⟨c, hc, hdigit⟩ | ⟨c, more, hchars, -⟩
    · obtain ⟨more, hchars⟩ := List.head?_eq_some_iff.mp hc
      refine ⟨c, more, hchars, isBlank_of_isDigit hdigit, ?_⟩
      rintro rfl
      exact absurd hdigit (by decide)
    · exact ⟨_, _, hchars, by decide, by decide⟩
  | string => exact ⟨_, _, rfl, by decide, by decide⟩
  | emptyArray => exact ⟨_, _, rfl, by decide, by decide⟩
  | array => exact ⟨_, _, rfl, by decide, by decide⟩
  | emptyObject => exact ⟨_, _, rfl, by decide, by decide⟩
  | object => exact ⟨_, _, rfl, by decide, by decide⟩

theorem SpelledItems.exists_chars_eq_cons (gap : List Char → List Char) (items : SpelledItems) :
    ∃ c more, items.chars gap = c :: more ∧ isBlank c = false ∧ c ≠ ']' := by
  cases items with
  | last item after =>
    obtain ⟨c, more, hchars, h⟩ := item.exists_chars_eq_cons gap
    exact ⟨c, _, by rw [chars, hchars, List.cons_append], h⟩
  | more item after before items =>
    obtain ⟨c, more, hchars, h⟩ := item.exists_chars_eq_cons gap
    exact ⟨c, _, by rw [chars, hchars, List.cons_append], h⟩

theorem SpelledItems.length_chars_pos (gap : List Char → List Char) (items : SpelledItems) :
    0 < (items.chars gap).length := by
  obtain ⟨c, more, hchars, -⟩ := items.exists_chars_eq_cons gap
  rw [hchars]
  exact Nat.succ_pos _

theorem Spelling.length_chars_pos (gap : List Char → List Char) (s : Spelling) :
    0 < (s.chars gap).length := by
  obtain ⟨c, more, hchars, -⟩ := s.exists_chars_eq_cons gap
  rw [hchars]
  exact Nat.succ_pos _

/-! ### Separators -/

theorem skipBlanks_of_not {c : Char} (h : isBlank c = false) (cs : List Char) :
    skipBlanks (c :: cs) = c :: cs := by
  rw [skipBlanks, h]
  rfl

/-- A character that no blank is stands ahead behind blanks. -/
theorem Blanks.skipBlanks_append (blanks : Blanks) {c : Char} (h : isBlank c = false)
    (cs : List Char) : skipBlanks (blanks.chars ++ c :: cs) = c :: cs := by
  rw [Json.skipBlanks_append blanks.allBlank, skipBlanks_of_not h]

/-- Blanks end a number, and so do the characters behind an item or a member. -/
theorem Blanks.numberEnds_append (blanks : Blanks) {c : Char} (h : c = ',' ∨ c = ']' ∨ c = '}')
    (cs : List Char) : NumberEnds (blanks.chars ++ c :: cs) := by
  cases hblanks : blanks.chars with
  | nil =>
    intro d hd
    obtain rfl := Option.some.inj hd
    rcases h with rfl | rfl | rfl <;> decide
  | cons b more =>
    exact numberEnds_cons_of_isBlank (blanks.allBlank b (hblanks ▸ List.mem_cons_self)) _

theorem aheadInList_closed (first : Bool) (blanks : Blanks) (rest : List Char) :
    aheadInList first (blanks.chars ++ ']' :: rest) = .ok (.closed rest) := by
  rw [aheadInList, blanks.skipBlanks_append (by decide)]
  rfl

theorem aheadInList_opened (before : Blanks) (items : SpelledItems) (rest : List Char) :
    aheadInList true (before.chars ++ (items.chars id ++ rest)) =
      .ok (.another (items.chars id ++ rest)) := by
  obtain ⟨c, more, hchars, hblank, hclosing⟩ := items.exists_chars_eq_cons id
  rw [hchars]
  exact aheadInList_first (before.skipBlanks_append hblank _) hclosing

theorem aheadInList_further (after before : Blanks) (items : SpelledItems) (rest : List Char) :
    aheadInList false (after.chars ++ ',' :: (before.chars ++ (items.chars id ++ rest))) =
      .ok (.another (items.chars id ++ rest)) := by
  obtain ⟨c, more, hchars, hblank, hclosing⟩ := items.exists_chars_eq_cons id
  rw [hchars, aheadInList, after.skipBlanks_append (by decide)]
  exact aheadInList_comma (before.skipBlanks_append hblank _) hclosing

/-- Members behind the quotation mark of the first key. -/
theorem SpelledMembers.exists_chars_eq_cons (gap : List Char → List Char)
    (members : SpelledMembers) : ∃ more, members.chars gap = '"' :: more := by
  cases members with
  | last key value after => exact ⟨_, rfl⟩
  | more key value after before members => exact ⟨_, rfl⟩

theorem aheadInObject_closed (first : Bool) (blanks : Blanks) (rest : List Char) :
    aheadInObject first (blanks.chars ++ '}' :: rest) = .ok (.closed rest) := by
  rw [aheadInObject, blanks.skipBlanks_append (by decide)]
  rfl

theorem aheadInObject_opened (before : Blanks) (cs : List Char) :
    aheadInObject true (before.chars ++ '"' :: cs) = .ok (.another cs) := by
  rw [aheadInObject, before.skipBlanks_append (by decide)]
  rfl

theorem aheadInObject_further (after before : Blanks) (cs : List Char) :
    aheadInObject false (after.chars ++ ',' :: (before.chars ++ '"' :: cs)) =
      .ok (.another cs) := by
  rw [aheadInObject, after.skipBlanks_append (by decide)]
  exact aheadInObject_comma (before.skipBlanks_append (by decide) _)

/-- The member ahead: its key is read, then its value, then the further members. -/
theorem readMembers_key (key : SpelledKey) {first : Bool} {cs keyed more : List Char}
    (hahead : aheadInObject first cs = .ok (.another keyed))
    (hkeyed : key.chars id ++ more = '"' :: keyed) (fuel room : Nat)
    (sorted : List (String × Json)) :
    readMembers (fuel + 1) room first sorted cs = readValue fuel room more >>= fun p =>
      readMembers fuel room false (Entries.insert (piecesText key.pieces) p.1 sorted) p.2 := by
  have hkey : key.chars id ++ more = '"' :: (piecesChars key.pieces ++
      '"' :: (key.behindKey.chars ++ ':' :: (key.behindColon.chars ++ more))) := by
    simp [SpelledKey.chars, literal]
  rw [readMembers, hahead, (List.cons.inj (hkeyed.symm.trans hkey)).2]
  show (readString _ >>= _) = _
  rw [readString_pieces]
  show (readColon _ >>= _) = _
  rw [readColon, key.behindKey.skipBlanks_append (by decide)]
  show (readValue fuel room (key.behindColon.chars ++ more) >>= _) = _
  rw [readValue_append key.behindColon.allBlank]

/-! ### Values -/

/-- What is read behind something that may nest too deeply. -/
theorem unlessTooDeep_bind {α β : Type} (p : Prop) [Decidable p] (a : α)
    (f : α → Except SyntaxError β) :
    ((if p then .ok a else .error .tooDeep) >>= f) = if p then f a else .error .tooDeep := by
  split
  · rfl
  · rfl

mutual

/-- The text of a spelling is read as its document, unless containers nest too deeply. -/
theorem readValue_spelling : ∀ (s : Spelling) (fuel room : Nat) (rest : List Char),
    (s.chars id).length ≤ fuel → NumberEnds rest →
      readValue fuel room (s.chars id ++ rest) =
        if s.document.depth ≤ room then .ok (s.document.sortMembers, rest) else .error .tooDeep
  | s, 0, _, _, hfuel, _ => absurd hfuel (Nat.not_le_of_gt (s.length_chars_pos id))
  | .null, _ + 1, _, _, _, _ => rfl
  | .bool true, _ + 1, _, _, _, _ => rfl
  | .bool false, _ + 1, _, _, _, _ => rfl
  | .number numeral, fuel + 1, room, rest, _, hends => by
      obtain ⟨hbegins, -, hread⟩ := numeral.reads_append
      rw [Spelling.chars, readValue_of_beginsNumber (hbegins.append rest), hread rest hends]
      rfl
  | .string pieces, fuel + 1, room, rest, _, _ => by
      have hchars : (Spelling.string pieces).chars id ++ rest =
          '"' :: (piecesChars pieces ++ '"' :: rest) := by
        simp [Spelling.chars, literal]
      rw [hchars, readValue]
      show (readString _ >>= _) = _
      rw [readString_pieces]
      rfl
  | .emptyArray inside, fuel + 1, room, rest, hfuel, _ => by
      have hchars : (Spelling.emptyArray inside).chars id ++ rest =
          '[' :: (inside.chars ++ ']' :: rest) := by
        simp [Spelling.chars]
      rw [hchars]
      cases room with
      | zero => rfl
      | succ room =>
        cases fuel with
        | zero => simp [Spelling.chars] at hfuel
        | succ fuel =>
          rw [readValue]
          show (readItems (fuel + 1) room true _ >>= _) = _
          rw [readItems, aheadInList_closed]
          rfl
  | .array before items, fuel + 1, room, rest, hfuel, _ => by
      have hchars : (Spelling.array before items).chars id ++ rest =
          '[' :: (before.chars ++ (items.chars id ++ rest)) := by
        simp [Spelling.chars]
      have hlength : (items.chars id).length ≤ fuel := by
        simp only [Spelling.chars, List.length_cons, List.length_append] at hfuel
        omega
      rw [hchars]
      cases room with
      | zero => rfl
      | succ room =>
        rw [readValue]
        show (readItems fuel room true _ >>= _) = _
        rw [readItems_spelling items fuel room true _ rest (aheadInList_opened before items rest)
          hlength, unlessTooDeep_bind]
        show _ = if depthOfItems items.documents + 1 ≤ room + 1 then _ else _
        simp only [Nat.add_le_add_iff_right]
        rfl
  | .emptyObject inside, fuel + 1, room, rest, hfuel, _ => by
      have hchars : (Spelling.emptyObject inside).chars id ++ rest =
          '{' :: (inside.chars ++ '}' :: rest) := by
        simp [Spelling.chars]
      rw [hchars]
      cases room with
      | zero => rfl
      | succ room =>
        cases fuel with
        | zero => simp [Spelling.chars] at hfuel
        | succ fuel =>
          rw [readValue]
          show (readMembers (fuel + 1) room true [] _ >>= _) = _
          rw [readMembers, aheadInObject_closed]
          rfl
  | .object before members, fuel + 1, room, rest, hfuel, _ => by
      have hchars : (Spelling.object before members).chars id ++ rest =
          '{' :: (before.chars ++ (members.chars id ++ rest)) := by
        simp [Spelling.chars]
      have hlength : (members.chars id).length ≤ fuel := by
        simp only [Spelling.chars, List.length_cons, List.length_append] at hfuel
        omega
      rw [hchars]
      cases room with
      | zero => rfl
      | succ room =>
        obtain ⟨more, hmore⟩ := members.exists_chars_eq_cons id
        have hahead : aheadInObject true (before.chars ++ (members.chars id ++ rest)) =
            .ok (.another (more ++ rest)) := by
          rw [hmore]
          exact aheadInObject_opened before _
        rw [readValue]
        show (readMembers fuel room true [] _ >>= _) = _
        rw [readMembers_spelling members fuel room true [] _ (more ++ rest) rest hahead
          (by rw [hmore]; rfl) hlength, unlessTooDeep_bind]
        show _ = if depthOfMembers members.documents + 1 ≤ room + 1 then _ else _
        simp only [Nat.add_le_add_iff_right]
        rfl

theorem readItems_spelling : ∀ (items : SpelledItems) (fuel room : Nat) (first : Bool)
    (cs rest : List Char), aheadInList first cs = .ok (.another (items.chars id ++ rest)) →
      (items.chars id).length ≤ fuel →
      readItems fuel room first cs =
        if depthOfItems items.documents ≤ room then .ok (sortItems items.documents, rest)
        else .error .tooDeep
  | items, 0, _, _, _, _, _, hfuel =>
      absurd hfuel (Nat.not_le_of_gt (items.length_chars_pos id))
  | .last item after, fuel + 1, room, first, cs, rest, hahead, hfuel => by
      have hpos := item.length_chars_pos id
      have hchars : (SpelledItems.last item after).chars id ++ rest =
          item.chars id ++ (after.chars ++ ']' :: rest) := by
        simp [SpelledItems.chars]
      have hlength : (item.chars id).length < fuel + 1 := by
        simp only [SpelledItems.chars, List.length_cons, List.length_append] at hfuel
        omega
      rw [readItems, hahead, hchars]
      show (readValue fuel room _ >>= _) = _
      rw [readValue_spelling item fuel room _ (Nat.le_of_lt_succ hlength)
        (after.numberEnds_append (.inr (.inl rfl)) rest), unlessTooDeep_bind]
      show (if _ then readItems fuel room false _ >>= _ else _) =
        if max item.document.depth 0 ≤ room then _ else _
      -- the item was not empty, so fuel is left for the closing bracket
      cases fuel with
      | zero => omega
      | succ fuel =>
        rw [Nat.max_zero, readItems, aheadInList_closed]
        rfl
  | .more item after before items, fuel + 1, room, first, cs, rest, hahead, hfuel => by
      have hpos := item.length_chars_pos id
      have hchars : (SpelledItems.more item after before items).chars id ++ rest =
          item.chars id ++ (after.chars ++ ',' :: (before.chars ++ (items.chars id ++ rest))) := by
        simp [SpelledItems.chars]
      have hlength : (item.chars id).length + (items.chars id).length < fuel + 1 := by
        simp only [SpelledItems.chars, List.length_cons, List.length_append] at hfuel
        omega
      rw [readItems, hahead, hchars]
      show (readValue fuel room _ >>= _) = _
      rw [readValue_spelling item fuel room _ (by omega) (after.numberEnds_append (.inl rfl) _),
        unlessTooDeep_bind]
      show (if _ then readItems fuel room false _ >>= _ else _) =
        if max item.document.depth (depthOfItems items.documents) ≤ room then _ else _
      rw [readItems_spelling items fuel room false _ rest
        (aheadInList_further after before items rest) (by omega), unlessTooDeep_bind]
      simp only [Nat.max_le, ite_and]
      rfl

theorem readMembers_spelling : ∀ (members : SpelledMembers) (fuel room : Nat) (first : Bool)
    (sorted : List (String × Json)) (cs keyed rest : List Char),
      aheadInObject first cs = .ok (.another keyed) → members.chars id ++ rest = '"' :: keyed →
      (members.chars id).length ≤ fuel →
      readMembers fuel room first sorted cs =
        if depthOfMembers members.documents ≤ room then
          .ok ((sortMemberValues members.documents).foldl
            (fun sorted m => Entries.insert m.1 m.2 sorted) sorted, rest)
        else .error .tooDeep
  | members, 0, _, _, _, _, _, _, _, _, hfuel => by
      obtain ⟨more, hmore⟩ := members.exists_chars_eq_cons id
      rw [hmore] at hfuel
      exact absurd hfuel (Nat.not_succ_le_zero _)
  | .last key value after, fuel + 1, room, first, sorted, cs, keyed, rest, hahead, hkeyed,
    hfuel => by
      have hpos := value.length_chars_pos id
      have hchars : (SpelledMembers.last key value after).chars id ++ rest =
          key.chars id ++ (value.chars id ++ (after.chars ++ '}' :: rest)) := by
        simp [SpelledMembers.chars]
      have hlength : (value.chars id).length < fuel + 1 := by
        simp only [SpelledMembers.chars, List.length_cons, List.length_append] at hfuel
        omega
      rw [readMembers_key key hahead (hchars ▸ hkeyed),
        readValue_spelling value fuel room _ (Nat.le_of_lt_succ hlength)
          (after.numberEnds_append (.inr (.inr rfl)) rest), unlessTooDeep_bind]
      show (if _ then readMembers fuel room false _ _ else _) =
        if max value.document.depth 0 ≤ room then _ else _
      cases fuel with
      | zero => omega
      | succ fuel =>
        rw [Nat.max_zero, readMembers, aheadInObject_closed]
        rfl
  | .more key value after before members, fuel + 1, room, first, sorted, cs, keyed, rest, hahead,
    hkeyed, hfuel => by
      have hpos := value.length_chars_pos id
      have hchars : (SpelledMembers.more key value after before members).chars id ++ rest =
          key.chars id ++ (value.chars id ++
            (after.chars ++ ',' :: (before.chars ++ (members.chars id ++ rest)))) := by
        simp [SpelledMembers.chars]
      have hlength : (value.chars id).length + (members.chars id).length < fuel + 1 := by
        simp only [SpelledMembers.chars, List.length_cons, List.length_append] at hfuel
        omega
      obtain ⟨more, hmore⟩ := members.exists_chars_eq_cons id
      rw [readMembers_key key hahead (hchars ▸ hkeyed),
        readValue_spelling value fuel room _ (by omega) (after.numberEnds_append (.inl rfl) _),
        unlessTooDeep_bind]
      have hnext : aheadInObject false
          (after.chars ++ ',' :: (before.chars ++ (members.chars id ++ rest))) =
          .ok (.another (more ++ rest)) := by
        rw [hmore]
        exact aheadInObject_further after before _
      show (if _ then readMembers fuel room false _ _ else _) =
        if max value.document.depth (depthOfMembers members.documents) ≤ room then _ else _
      rw [readMembers_spelling members fuel room false _ _ (more ++ rest) rest hnext
        (by rw [hmore]; rfl) (by omega)]
      simp only [Nat.max_le, ite_and]
      rfl

end

/-! ### What reads is spelled -/

theorem allBlank_nil : AllBlank [] := List.forall_mem_nil _

namespace Blanks

/-- No blanks. -/
def none : Blanks := ⟨[], allBlank_nil⟩

/-- Blanks and further blanks. -/
def append (before after : Blanks) : Blanks where
  chars := before.chars ++ after.chars
  allBlank c hc := (List.mem_append.mp hc).elim (before.allBlank c) (after.allBlank c)

end Blanks

/-- What is passed over in front of a word. -/
theorem exists_blanks : ∀ cs : List Char, ∃ blanks : Blanks, cs = blanks.chars ++ skipBlanks cs
  | [] => ⟨.none, rfl⟩
  | c :: cs => by
      cases hc : isBlank c with
      | false => exact ⟨.none, (skipBlanks_of_not hc cs).symm⟩
      | true =>
        obtain ⟨blanks, hblanks⟩ := exists_blanks cs
        refine ⟨⟨c :: blanks.chars, List.forall_mem_cons.mpr ⟨hc, blanks.allBlank⟩⟩, ?_⟩
        rw [skipBlanks, if_pos hc, List.cons_append, ← hblanks]

theorem keyword_eq_ok {α : Type} {value v : α} : ∀ {word cs rest : List Char},
    keyword value word cs = .ok (v, rest) → cs = word ++ rest
  | [], cs, rest, h => (Prod.mk.inj (Except.ok.inj h)).2
  | _ :: _, [], _, h => by cases h
  | expected :: more, c :: cs, rest, h => by
      rw [keyword] at h
      split at h
      next hc => rw [hc, keyword_eq_ok h]; rfl
      next => cases h

theorem aheadInList_eq_closed {first : Bool} {cs rest : List Char}
    (h : aheadInList first cs = .ok (.closed rest)) :
    ∃ blanks : Blanks, cs = blanks.chars ++ ']' :: rest := by
  obtain ⟨blanks, hblanks⟩ := exists_blanks cs
  unfold aheadInList at h
  split at h
  next => cases h
  next heq =>
    cases h
    exact ⟨blanks, heq ▸ hblanks⟩
  next =>
    split at h
    next => cases h
    next =>
      split at h
      next => split at h <;> cases h
      next => cases h

/-- What stands between two items, nothing in front of the first one. -/
def Separates (first : Bool) (separator : List Char) : Prop :=
  if first then separator = [] else ∃ after : Blanks, separator = after.chars ++ [',']

theorem aheadInList_eq_another {first : Bool} {cs more : List Char}
    (h : aheadInList first cs = .ok (.another more)) :
    ∃ separator, Separates first separator ∧
      ∃ before : Blanks, cs = separator ++ (before.chars ++ more) := by
  obtain ⟨blanks, hblanks⟩ := exists_blanks cs
  unfold aheadInList at h
  split at h
  next => cases h
  next => cases h
  next c rest _ heq =>
    split at h
    next hfirst =>
      cases h
      exact ⟨[], by rw [Separates, if_pos hfirst], blanks, heq ▸ hblanks⟩
    next hfirst =>
      split at h
      next hcomma =>
        obtain ⟨before, hbefore⟩ := exists_blanks rest
        refine ⟨blanks.chars ++ [','], by rw [Separates, if_neg hfirst]; exact ⟨blanks, rfl⟩,
          before, ?_⟩
        split at h
        next => cases h
        next => cases h
        next =>
          cases h
          rw [hblanks, heq, hcomma, List.append_assoc, List.singleton_append, ← hbefore]
      next => cases h

theorem aheadInObject_eq_closed {first : Bool} {cs rest : List Char}
    (h : aheadInObject first cs = .ok (.closed rest)) :
    ∃ blanks : Blanks, cs = blanks.chars ++ '}' :: rest := by
  obtain ⟨blanks, hblanks⟩ := exists_blanks cs
  unfold aheadInObject at h
  split at h
  next => cases h
  next heq =>
    cases h
    exact ⟨blanks, heq ▸ hblanks⟩
  next =>
    split at h
    next => split at h <;> cases h
    next =>
      split at h
      next => split at h <;> cases h
      next => cases h

theorem aheadInObject_eq_another {first : Bool} {cs keyed : List Char}
    (h : aheadInObject first cs = .ok (.another keyed)) :
    ∃ separator, Separates first separator ∧
      ∃ before : Blanks, cs = separator ++ (before.chars ++ '"' :: keyed) := by
  obtain ⟨blanks, hblanks⟩ := exists_blanks cs
  unfold aheadInObject at h
  split at h
  next => cases h
  next => cases h
  next c rest _ heq =>
    split at h
    next hfirst =>
      split at h
      next hquote =>
        cases h
        exact ⟨[], by rw [Separates, if_pos hfirst], blanks, hquote ▸ heq ▸ hblanks⟩
      next => cases h
    next hfirst =>
      split at h
      next hcomma =>
        obtain ⟨before, hbefore⟩ := exists_blanks rest
        refine ⟨blanks.chars ++ [','], by rw [Separates, if_neg hfirst]; exact ⟨blanks, rfl⟩,
          before, ?_⟩
        split at h
        next => cases h
        next behind hbehind =>
          cases h
          rw [hblanks, heq, hcomma, List.append_assoc, List.singleton_append, ← hbehind, ← hbefore]
        next => cases h
        next => cases h
      next => cases h

theorem readColon_eq_ok {cs rest : List Char} (h : readColon cs = .ok rest) :
    ∃ blanks : Blanks, cs = blanks.chars ++ ':' :: rest := by
  obtain ⟨blanks, hblanks⟩ := exists_blanks cs
  unfold readColon at h
  split at h
  next => cases h
  next heq =>
    cases h
    exact ⟨blanks, heq ▸ hblanks⟩
  next => cases h

/-- Items ahead of a reader: only the end of the list, or a separator and items. -/
def ItemsAhead (first : Bool) (cs rest : List Char) : Prop :=
  (∃ blanks : Blanks, cs = blanks.chars ++ ']' :: rest) ∨
    ∃ separator, Separates first separator ∧ ∃ (before : Blanks) (items : SpelledItems),
      cs = separator ++ (before.chars ++ (items.chars id ++ rest))

/-- Members ahead of a reader. -/
def MembersAhead (first : Bool) (cs rest : List Char) : Prop :=
  (∃ blanks : Blanks, cs = blanks.chars ++ '}' :: rest) ∨
    ∃ separator, Separates first separator ∧ ∃ (before : Blanks) (members : SpelledMembers),
      cs = separator ++ (before.chars ++ (members.chars id ++ rest))

/-- What the reader of values gets through with so much fuel was spelled. -/
def SpelledValues (fuel : Nat) : Prop :=
  ∀ {room : Nat} {cs rest : List Char} {j : Json}, readValue fuel room cs = .ok (j, rest) →
    ∃ (before : Blanks) (s : Spelling), cs = before.chars ++ (s.chars id ++ rest)

/-- So was what the reader of items gets through. -/
def SpelledLists (fuel : Nat) : Prop :=
  ∀ {room : Nat} {first : Bool} {cs rest : List Char} {items : List Json},
    readItems fuel room first cs = .ok (items, rest) → ItemsAhead first cs rest

/-- So was what the reader of members gets through. -/
def SpelledObjects (fuel : Nat) : Prop :=
  ∀ {room : Nat} {first : Bool} {cs rest : List Char} {sorted members : List (String × Json)},
    readMembers fuel room first sorted cs = .ok (members, rest) → MembersAhead first cs rest

section Steps

variable {fuel : Nat}

theorem SpelledValues.succ (hlists : SpelledLists fuel) (hobjects : SpelledObjects fuel) :
    SpelledValues (fuel + 1) := by
  intro room cs rest j h
  obtain ⟨blanks, hblanks⟩ := exists_blanks cs
  suffices hs : ∃ s : Spelling, skipBlanks cs = s.chars id ++ rest by
    obtain ⟨s, hs⟩ := hs
    exact ⟨blanks, s, hs ▸ hblanks⟩
  rw [readValue] at h
  split at h
  next => cases h
  next c behind heq =>
    rw [heq]
    split at h
    next => exact ⟨.null, congrArg ('n' :: ·) (keyword_eq_ok h)⟩
    next => exact ⟨.bool true, congrArg ('t' :: ·) (keyword_eq_ok h)⟩
    next => exact ⟨.bool false, congrArg ('f' :: ·) (keyword_eq_ok h)⟩
    next =>
      obtain ⟨⟨text, behind⟩, hstring, h'⟩ := ok_of_bind h
      obtain ⟨rfl, rfl⟩ := Prod.mk.inj (Except.ok.inj h')
      obtain ⟨pieces, rfl, -⟩ := exists_pieces_of_readString hstring
      exact ⟨.string pieces, by simp [Spelling.chars, literal]⟩
    next =>
      cases room with
      | zero => cases h
      | succ room =>
        obtain ⟨⟨items, behind⟩, hitems, h'⟩ := ok_of_bind h
        obtain ⟨rfl, rfl⟩ := Prod.mk.inj (Except.ok.inj h')
        rcases hlists hitems with ⟨inside, rfl⟩ | ⟨_, rfl, before, items, rfl⟩
        · exact ⟨.emptyArray inside, by simp [Spelling.chars]⟩
        · exact ⟨.array before items, by simp [Spelling.chars]⟩
    next =>
      cases room with
      | zero => cases h
      | succ room =>
        obtain ⟨⟨members, behind⟩, hmembers, h'⟩ := ok_of_bind h
        obtain ⟨rfl, rfl⟩ := Prod.mk.inj (Except.ok.inj h')
        rcases hobjects hmembers with ⟨inside, rfl⟩ | ⟨_, rfl, before, members, rfl⟩
        · exact ⟨.emptyObject inside, by simp [Spelling.chars]⟩
        · exact ⟨.object before members, by simp [Spelling.chars]⟩
    next =>
      obtain ⟨⟨n, behind⟩, hnumber, h'⟩ := ok_of_bind h
      obtain ⟨rfl, rfl⟩ := Prod.mk.inj (Except.ok.inj h')
      obtain ⟨numeral, hnumeral, -⟩ :=
        exists_numeral (show readNumeral ('-' :: _) = _ from hnumber)
      exact ⟨.number numeral, hnumeral⟩
    next =>
      split at h
      next hc =>
        obtain ⟨⟨n, behind⟩, hnumber, h'⟩ := ok_of_bind h
        obtain ⟨rfl, rfl⟩ := Prod.mk.inj (Except.ok.inj h')
        obtain ⟨numeral, hnumeral, -⟩ :=
          exists_numeral ((readNumeral_of_isDigit hc _).trans hnumber)
        exact ⟨.number numeral, hnumeral⟩
      next => cases h

theorem SpelledLists.succ (hvalues : SpelledValues fuel) (hlists : SpelledLists fuel) :
    SpelledLists (fuel + 1) := by
  intro room first cs rest items h
  rw [readItems] at h
  obtain ⟨ahead, hahead, h'⟩ := ok_of_bind h
  cases ahead with
  | closed behind =>
    obtain ⟨rfl, rfl⟩ := Prod.mk.inj (Except.ok.inj h')
    exact .inl (aheadInList_eq_closed hahead)
  | another more =>
    obtain ⟨⟨item, behind⟩, hitem, h'⟩ := ok_of_bind h'
    obtain ⟨⟨items, behind⟩, hitems, h'⟩ := ok_of_bind h'
    obtain ⟨rfl, rfl⟩ := Prod.mk.inj (Except.ok.inj h')
    obtain ⟨separator, hseparator, before, rfl⟩ := aheadInList_eq_another hahead
    obtain ⟨before', s, rfl⟩ := hvalues hitem
    refine .inr ⟨separator, hseparator, before.append before', ?_⟩
    rcases hlists hitems with ⟨after, rfl⟩ | ⟨_, ⟨after, rfl⟩, before, items, rfl⟩
    · exact ⟨.last s after, by simp [Blanks.append, SpelledItems.chars]⟩
    · exact ⟨.more s after before items, by simp [Blanks.append, SpelledItems.chars]⟩

theorem SpelledObjects.succ (hvalues : SpelledValues fuel) (hobjects : SpelledObjects fuel) :
    SpelledObjects (fuel + 1) := by
  intro room first cs rest sorted members h
  rw [readMembers] at h
  obtain ⟨ahead, hahead, h'⟩ := ok_of_bind h
  cases ahead with
  | closed behind =>
    obtain ⟨rfl, rfl⟩ := Prod.mk.inj (Except.ok.inj h')
    exact .inl (aheadInObject_eq_closed hahead)
  | another keyed =>
    obtain ⟨⟨key, behind⟩, hkey, hbehind⟩ := ok_of_bind h'
    obtain ⟨behindColon, hcolon, hread⟩ := ok_of_bind hbehind
    obtain ⟨⟨value, behind⟩, hvalue, hmembers⟩ := ok_of_bind hread
    obtain ⟨separator, hseparator, before, rfl⟩ := aheadInObject_eq_another hahead
    obtain ⟨pieces, rfl, -⟩ := exists_pieces_of_readString hkey
    obtain ⟨behindKey, rfl⟩ := readColon_eq_ok hcolon
    obtain ⟨behindColon, s, rfl⟩ := hvalues hvalue
    refine .inr ⟨separator, hseparator, before, ?_⟩
    let key : SpelledKey := ⟨pieces, behindKey, behindColon⟩
    rcases hobjects hmembers with ⟨after, rfl⟩ | ⟨_, ⟨after, rfl⟩, before, members, rfl⟩
    · exact ⟨.last key s after, by simp [key, SpelledMembers.chars, SpelledKey.chars, literal]⟩
    · exact ⟨.more key s after before members,
        by simp [key, SpelledMembers.chars, SpelledKey.chars, literal]⟩

end Steps

/-- What the readers get through was spelled. -/
theorem spelled_ahead (fuel : Nat) :
    SpelledValues fuel ∧ SpelledLists fuel ∧ SpelledObjects fuel := by
  induction fuel with
  | zero => exact ⟨fun h => (by cases h), fun h => (by cases h), fun h => (by cases h)⟩
  | succ fuel ih =>
    obtain ⟨hvalues, hlists, hobjects⟩ := ih
    exact ⟨SpelledValues.succ hlists hobjects, SpelledLists.succ hvalues hlists,
      SpelledObjects.succ hvalues hobjects⟩

/-! ## Whole texts -/

/-- A way to write a text: a value between blanks. -/
structure Script where
  before : Blanks
  value : Spelling
  after : Blanks

/-- The text of a script. -/
def Script.chars (gap : List Char → List Char) (script : Script) : List Char :=
  gap script.before.chars ++ (script.value.chars gap ++ gap script.after.chars)

/-- The text of a script is read as its document, unless containers nest too deeply. -/
theorem ofText_script (script : Script) {text : String} (htext : script.chars id = text.toList) :
    ofText text =
      if script.value.document.depth ≤ nestingLimit then .ok script.value.document.sortMembers
      else .error .tooDeep := by
  have hends : NumberEnds script.after.chars := by
    intro c hc
    obtain ⟨more, hmore⟩ := List.head?_eq_some_iff.mp hc
    exact numberEnds_cons_of_isBlank
      (script.after.allBlank c (hmore ▸ List.mem_cons_self)) more c rfl
  have hlength : (script.value.chars id).length ≤ fuelFor text.toList := by
    rw [fuelFor, ← htext, Script.chars]
    simp only [List.length_append]
    omega
  rw [ofText]
  show (readValue _ nestingLimit text.toList >>= _) = _
  generalize fuelFor text.toList = fuel at hlength
  rw [← htext]
  show (readValue fuel nestingLimit (script.before.chars ++ _) >>= _) = _
  rw [readValue_append script.before.allBlank]
  show (readValue fuel nestingLimit (_ ++ script.after.chars) >>= _) = _
  rw [readValue_spelling _ _ _ _ hlength hends]
  split
  next =>
    have hend : skipBlanks script.after.chars = [] := by
      have h := skipBlanks_append script.after.allBlank []
      rwa [List.append_nil] at h
    show (atEnd script.after.chars >>= _) = _
    rw [atEnd, hend]
    rfl
  next => rfl

/-- A text that reads is the text of a script. -/
theorem exists_script {text : String} {j : Json} (h : ofText text = .ok j) :
    ∃ script : Script, script.chars id = text.toList := by
  obtain ⟨⟨value, behind⟩, hvalue, hend⟩ := ok_of_bind h
  obtain ⟨before, s, hs⟩ := (spelled_ahead _).1 hvalue
  obtain ⟨_, hatEnd, -⟩ := ok_of_bind hend
  unfold atEnd at hatEnd
  split at hatEnd
  next hempty =>
    obtain ⟨after, hafter⟩ := exists_blanks behind
    rw [List.isEmpty_iff.mp hempty, List.append_nil] at hafter
    exact ⟨⟨before, s, after⟩, by rw [hs, hafter]; rfl⟩
  next => cases hatEnd

/-- A text reads exactly if it is spelled, with containers that do not nest too deeply. -/
theorem ofText_eq_ok_iff {text : String} {j : Json} :
    ofText text = .ok j ↔ ∃ script : Script, script.chars id = text.toList ∧
      script.value.document.depth ≤ nestingLimit ∧ script.value.document.sortMembers = j := by
  constructor
  · intro h
    obtain ⟨script, htext⟩ := exists_script h
    rw [ofText_script script htext] at h
    split at h
    next hdepth => exact ⟨script, htext, hdepth, Except.ok.inj h⟩
    next => cases h
  · rintro ⟨script, htext, hdepth, rfl⟩
    rw [ofText_script script htext, if_pos hdepth]

end Rollout.Json
