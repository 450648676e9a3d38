import Rollout.Proofs.Json.Reading

/-!
# Reading back whole documents

The text of a document, in whatever layout it is written, is read back as the value of the document:
the reader sorts the members of each object and keeps the last one of a key, as `Json.sortMembers`
does (`Json.ofText_laidOut`).  Two things can keep a text from being read back.  A double is written
with its shortest digits, which the reader may round to another double, so documents are to be
without doubles here (`Json.NoDoubles`).  And the reader opens only so many containers inside one
another (`Json.depth`).

A value is read up to where it ends, so the theorem is about texts with anything behind them that
cannot continue a number.  The induction is on the document, in step with its items and members; each
call of the reader takes a character at least, so the length of a text is fuel enough for it.
-/

namespace Rollout.Json

/-! ## Documents that can be read back -/

mutual

/-- How many containers are nested in a document. -/
def depth : Json → Nat
  | .array items => depthOfItems items + 1
  | .object members => depthOfMembers members + 1
  | _ => 0

/-- The greatest depth of items. -/
def depthOfItems : List Json → Nat
  | [] => 0
  | j :: rest => max j.depth (depthOfItems rest)

/-- The greatest depth of members. -/
def depthOfMembers : List (String × Json) → Nat
  | [] => 0
  | (_, j) :: rest => max j.depth (depthOfMembers rest)

end

mutual

/-- All numbers of a document are integers. -/
def NoDoubles : Json → Prop
  | .number (.double _) => False
  | .array items => ItemsNoDoubles items
  | .object members => MembersNoDoubles members
  | _ => True

/-- All numbers of the items are integers. -/
def ItemsNoDoubles : List Json → Prop
  | [] => True
  | j :: rest => j.NoDoubles ∧ ItemsNoDoubles rest

/-- All numbers of the members are integers. -/
def MembersNoDoubles : List (String × Json) → Prop
  | [] => True
  | (_, j) :: rest => j.NoDoubles ∧ MembersNoDoubles rest

end

@[simp] theorem noDoubles_null : Json.null.NoDoubles := trivial

@[simp] theorem noDoubles_integer (n : Int) (h : -2 ^ 63 ≤ n ∧ n < 2 ^ 64) :
    (Json.number (.integer n h)).NoDoubles := trivial

@[simp] theorem noDoubles_string (s : String) : (Json.string s).NoDoubles := trivial

@[simp] theorem noDoubles_bool (b : Bool) : (Json.bool b).NoDoubles := trivial

@[simp] theorem noDoubles_array (items : List Json) :
    (Json.array items).NoDoubles ↔ ∀ j ∈ items, j.NoDoubles := by
  change ItemsNoDoubles items ↔ _
  induction items with
  | nil => simp [ItemsNoDoubles]
  | cons j rest ih => rw [ItemsNoDoubles, ih, List.forall_mem_cons]

@[simp] theorem noDoubles_object (members : List (String × Json)) :
    (Json.object members).NoDoubles ↔ ∀ m ∈ members, m.2.NoDoubles := by
  change MembersNoDoubles members ↔ _
  induction members with
  | nil => simp [MembersNoDoubles]
  | cons m rest ih => rw [MembersNoDoubles, ih, List.forall_mem_cons]

/-! ## Values -/

/-- Blanks in front of a value are passed over. -/
theorem readValue_append {blanks : List Char} (h : AllBlank blanks) (fuel room : Nat)
    (cs : List Char) : readValue fuel room (blanks ++ cs) = readValue fuel room cs := by
  cases fuel with
  | zero => rfl
  | succ fuel => rw [readValue, readValue, skipBlanks_append h]

theorem integerNumber_of_nonneg {n : Int} (hneg : ¬n < 0) (h : -2 ^ 63 ≤ n ∧ n < 2 ^ 64) :
    integerNumber false n.natAbs = .integer n h := by
  have hvalue : (n.natAbs : Int) = n := by omega
  rw [integerNumber, Bool.false_and, if_neg Bool.false_ne_true, if_neg Bool.false_ne_true, hvalue,
    Number.ofInt?, dif_pos h]

theorem integerNumber_of_neg {n : Int} (hneg : n < 0) (h : -2 ^ 63 ≤ n ∧ n < 2 ^ 64) :
    integerNumber true n.natAbs = .integer n h := by
  have hne : n.natAbs ≠ 0 := by omega
  have hvalue : -(n.natAbs : Int) = n := by omega
  rw [integerNumber, if_neg (by simpa using hne), if_pos rfl, hvalue, Number.ofInt?, dif_pos h]

/-- In front of a digit a number is read. -/
theorem readValue_of_isDigit {c : Char} (hc : c.isDigit = true) (fuel room : Nat)
    (cs : List Char) :
    readValue (fuel + 1) room (c :: cs) =
      (readMagnitude false (c :: cs)).map fun p => (.number p.1, p.2) := by
  have hskip : skipBlanks (c :: cs) = c :: cs := by
    rw [skipBlanks, isBlank_of_isDigit hc]
    rfl
  rw [readValue, hskip]
  simp only
  split
  all_goals try exact absurd hc (by decide)
  rw [if_pos hc]
  cases readMagnitude false (c :: cs) <;> rfl

/-- An integer is read back. -/
theorem readValue_chars {n : Int} (h : -2 ^ 63 ≤ n ∧ n < 2 ^ 64) (fuel room : Nat)
    {rest : List Char} (hends : NumberEnds rest) :
    readValue (fuel + 1) room ((Number.integer n h).chars ++ rest) =
      .ok (.number (.integer n h), rest) := by
  rw [Number.chars]
  by_cases hneg : n < 0
  · rw [if_pos hneg, List.cons_append]
    have hread := readMagnitude_toDigits true (show n.natAbs < 2 ^ 64 by omega) hends
    have hminus : ∀ cs, readValue (fuel + 1) room ('-' :: cs) =
        (readMagnitude true cs).map fun p => (.number p.1, p.2) := by
      intro cs
      rw [readValue]
      show (readMagnitude true cs >>= fun p => Except.ok (Json.number p.1, p.2)) = _
      cases readMagnitude true cs <;> rfl
    rw [hminus, hread, integerNumber_of_neg hneg h]
    rfl
  · rw [if_neg hneg]
    have hread := readMagnitude_toDigits false (show n.natAbs < 2 ^ 64 by omega) hends
    cases hdigits : Nat.toDigits 10 n.natAbs with
    | nil => exact absurd hdigits Nat.toDigits_ne_nil
    | cons c more =>
      have hc : c.isDigit = true :=
        Nat.isDigit_of_mem_toDigits (by decide) (by decide) (hdigits ▸ List.mem_cons_self)
      rw [hdigits, List.cons_append] at hread
      rw [List.cons_append, readValue_of_isDigit hc, hread, integerNumber_of_nonneg hneg h]
      rfl

/-! ## Items -/

/-- A text that a value begins: no blank and no closing bracket stands in front. -/
theorem exists_laidOut_eq_cons (l : Layout) (level : Nat) : ∀ {j : Json}, j.NoDoubles →
    ∃ c more, j.laidOut l level = c :: more ∧ isBlank c = false ∧ c ≠ ']'
  | .null, _ => ⟨_, _, rfl, by decide, by decide⟩
  | .bool true, _ => ⟨_, _, rfl, by decide, by decide⟩
  | .bool false, _ => ⟨_, _, rfl, by decide, by decide⟩
  | .string _, _ => ⟨_, _, rfl, by decide, by decide⟩
  | .array [], _ => ⟨_, _, rfl, by decide, by decide⟩
  | .array (_ :: _), _ => ⟨_, _, rfl, by decide, by decide⟩
  | .object [], _ => ⟨_, _, rfl, by decide, by decide⟩
  | .object ((_, _) :: _), _ => ⟨_, _, rfl, by decide, by decide⟩
  | .number (.double _), h => absurd h id
  | .number (.integer n h), _ => by
      rw [laidOut, Number.chars]
      by_cases hneg : n < 0
      · rw [if_pos hneg]
        exact ⟨_, _, rfl, by decide, by decide⟩
      · rw [if_neg hneg]
        cases hdigits : Nat.toDigits 10 n.natAbs with
        | nil => exact absurd hdigits Nat.toDigits_ne_nil
        | cons c more =>
          have hc : c.isDigit = true :=
            Nat.isDigit_of_mem_toDigits (by decide) (by decide) (hdigits ▸ List.mem_cons_self)
          refine ⟨c, more, rfl, isBlank_of_isDigit hc, ?_⟩
          rintro rfl
          exact absurd hc (by decide)

section Items

variable (l : Layout) (level : Nat)

/-- The items ahead, the first of an array or further ones, up to the closing bracket. -/
def itemChars : (first : Bool) → List Json → List Char
  | true, [] => [']']
  | true, j :: rest => l.gap (level + 1) ++ (j.laidOut l (level + 1) ++ laidOutItems l level rest)
  | false, items => laidOutItems l level items

theorem laidOut_array (items : List Json) :
    (Json.array items).laidOut l level = '[' :: itemChars l level true items := by
  cases items <;> rfl

theorem aheadInList_end (first : Bool) (rest : List Char) :
    aheadInList first (itemChars l level first [] ++ rest) = .ok (.closed rest) := by
  cases first with
  | true => rfl
  | false =>
    have hskip : skipBlanks (itemChars l level false [] ++ rest) = ']' :: rest := by
      rw [itemChars, laidOutItems, List.append_assoc, skipBlanks_append (l.allBlank_gap level)]
      rfl
    rw [aheadInList, hskip]
    rfl

theorem aheadInList_first {cs more : List Char} {c : Char} (h : skipBlanks cs = c :: more)
    (hc : c ≠ ']') : aheadInList true cs = .ok (.another (c :: more)) := by
  rw [aheadInList, h]
  simp

theorem aheadInList_comma {cs more : List Char} {c : Char} (h : skipBlanks cs = c :: more)
    (hc : c ≠ ']') : aheadInList false (',' :: cs) = .ok (.another (c :: more)) := by
  have hcomma : skipBlanks (',' :: cs) = ',' :: cs := rfl
  rw [aheadInList, hcomma]
  simp [h, hc]

/-- The next item and what follows. -/
theorem aheadInList_itemChars (first : Bool) {j : Json} (h : j.NoDoubles) (items : List Json)
    (rest : List Char) :
    aheadInList first (itemChars l level first (j :: items) ++ rest) =
      .ok (.another (j.laidOut l (level + 1) ++ (itemChars l level false items ++ rest))) := by
  obtain ⟨c, more, hchars, hblank, hclosing⟩ := exists_laidOut_eq_cons l (level + 1) h
  have hskip : ∀ cs, skipBlanks (l.gap (level + 1) ++ c :: (more ++ cs)) = c :: (more ++ cs) := by
    intro cs
    rw [skipBlanks_append (l.allBlank_gap (level + 1)), skipBlanks, hblank]
    rfl
  have hrest : itemChars l level false items = laidOutItems l level items := rfl
  rw [hrest, hchars, List.cons_append]
  cases first with
  | true =>
    rw [itemChars, hchars, List.append_assoc, List.append_assoc, List.cons_append]
    exact aheadInList_first (hskip _) hclosing
  | false =>
    rw [itemChars, laidOutItems, hchars, List.cons_append, List.append_assoc, List.append_assoc,
      List.cons_append]
    exact aheadInList_comma (hskip _) hclosing

/-- A number before further items or the end of an array has ended. -/
theorem numberEnds_itemChars (items : List Json) (rest : List Char) :
    NumberEnds (itemChars l level false items ++ rest) := by
  cases items with
  | cons j items => exact fun c hc => Option.some.inj hc ▸ by decide
  | nil =>
    have hblank := l.allBlank_gap level
    rw [itemChars, laidOutItems]
    cases hgap : l.gap level with
    | nil => exact fun c hc => Option.some.inj hc ▸ by decide
    | cons c blanks =>
      rw [hgap] at hblank
      exact numberEnds_cons_of_isBlank (hblank c List.mem_cons_self) _

end Items

/-! ## Documents -/

section Documents

variable (l : Layout)

theorem length_itemChars_pos (level : Nat) (first : Bool) (items : List Json) :
    0 < (itemChars l level first items).length := by
  have hfurther : ∀ items, 0 < (laidOutItems l level items).length := by
    intro items
    cases items <;> simp [laidOutItems]
  cases first with
  | false => exact hfurther items
  | true =>
    cases items with
    | nil => exact Nat.one_pos
    | cons j items =>
      have h := hfurther items
      simp only [itemChars, List.length_append]
      omega

mutual

/-- The text of a document is read back as its value. -/
theorem readValue_laidOut : ∀ (j : Json) (level fuel room : Nat) (rest : List Char),
    j.NoDoubles → j.depth ≤ room → (j.laidOut l level).length ≤ fuel → NumberEnds rest →
      readValue fuel room (j.laidOut l level ++ rest) = .ok (j.sortMembers, rest)
  | j, level, 0, _, _, h, _, hfuel, _ => by
      obtain ⟨c, more, hchars, -⟩ := exists_laidOut_eq_cons l level h
      rw [hchars] at hfuel
      exact absurd hfuel (Nat.not_succ_le_zero _)
  | .null, _, _ + 1, _, _, _, _, _, _ => rfl
  | .bool true, _, _ + 1, _, _, _, _, _, _ => rfl
  | .bool false, _, _ + 1, _, _, _, _, _, _ => rfl
  | .number (.double _), _, _ + 1, _, _, h, _, _, _ => absurd h id
  | .number (.integer _ h), _, fuel + 1, room, _, _, _, _, hends =>
      readValue_chars h fuel room hends
  | .string s, level, fuel + 1, room, rest, _, _, _, _ => by
      have hchars : (Json.string s).laidOut l level ++ rest =
          '"' :: (escapeAll s.toList ++ '"' :: rest) := by
        simp [laidOut, quote]
      rw [hchars, readValue]
      show (readString _ >>= _) = _
      rw [readString_escapeAll]
      rfl
  | .array items, level, fuel + 1, room, rest, h, hdepth, hfuel, _ => by
      rw [laidOut_array] at hfuel ⊢
      cases room with
      | zero => exact absurd hdepth (Nat.not_succ_le_zero _)
      | succ room =>
        have hitems := readItems_itemChars items level fuel room true rest h
          (Nat.le_of_succ_le_succ hdepth) (Nat.le_of_succ_le_succ hfuel)
        rw [List.cons_append, readValue]
        show (readItems fuel room true _ >>= _) = _
        rw [hitems]
        rfl
  | .object members, level, fuel + 1, room, rest, h, hdepth, hfuel, _ => by
      rw [laidOut_object] at hfuel ⊢
      cases room with
      | zero => exact absurd hdepth (Nat.not_succ_le_zero _)
      | succ room =>
        have hmembers := readMembers_memberChars members level fuel room true [] rest h
          (Nat.le_of_succ_le_succ hdepth) (Nat.le_of_succ_le_succ hfuel)
        rw [List.cons_append, readValue]
        show (readMembers fuel room true [] _ >>= _) = _
        rw [hmembers]
        rfl

theorem readItems_itemChars : ∀ (items : List Json) (level fuel room : Nat) (first : Bool)
    (rest : List Char), ItemsNoDoubles items → depthOfItems items ≤ room →
      (itemChars l level first items).length ≤ fuel →
      readItems fuel room first (itemChars l level first items ++ rest) =
        .ok (sortItems items, rest)
  | items, level, 0, _, first, _, _, _, hfuel =>
      absurd hfuel (Nat.not_le_of_gt (length_itemChars_pos l level first items))
  | [], level, fuel + 1, room, first, rest, _, _, _ => by
      rw [readItems, aheadInList_end]
      rfl
  | j :: items, level, fuel + 1, room, first, rest, h, hdepth, hfuel => by
      have hlength : (j.laidOut l (level + 1)).length + (itemChars l level false items).length ≤
          (itemChars l level first (j :: items)).length := by
        cases first
        · simp [itemChars, laidOutItems]
          omega
        · simp [itemChars]
      have hfurther := length_itemChars_pos l level false items
      have hpos : 0 < (j.laidOut l (level + 1)).length := by
        obtain ⟨c, more, hchars, -⟩ := exists_laidOut_eq_cons l (level + 1) h.1
        rw [hchars]
        exact Nat.succ_pos _
      obtain ⟨hroom, hroom'⟩ := Nat.max_le.mp hdepth
      have hitem := readValue_laidOut j (level + 1) fuel room
        (itemChars l level false items ++ rest) h.1 hroom (by omega)
        (numberEnds_itemChars l level items rest)
      have hitems := readItems_itemChars items level fuel room false rest h.2 hroom' (by omega)
      rw [readItems, aheadInList_itemChars l level first h.1]
      show (readValue fuel room _ >>= _) = _
      rw [hitem]
      show (readItems fuel room false _ >>= _) = _
      rw [hitems]
      rfl

theorem readMembers_memberChars : ∀ (members : List (String × Json)) (level fuel room : Nat)
    (first : Bool) (sorted : List (String × Json)) (rest : List Char), MembersNoDoubles members →
      depthOfMembers members ≤ room → (memberChars l level first members).length ≤ fuel →
      readMembers fuel room first sorted (memberChars l level first members ++ rest) =
        .ok ((sortMemberValues members).foldl (fun sorted m => Entries.insert m.1 m.2 sorted)
          sorted, rest)
  | members, level, 0, _, first, _, _, _, _, hfuel => by
      have := length_lt_length_memberChars l level first members
      omega
  | [], level, fuel + 1, room, first, sorted, rest, _, _, _ => by
      rw [readMembers, aheadInObject_end]
      rfl
  | (key, j) :: members, level, fuel + 1, room, first, sorted, rest, h, hdepth, hfuel => by
      have hlength : (j.laidOut l (level + 1)).length + (memberChars l level false members).length <
          (memberChars l level first ((key, j) :: members)).length := by
        cases first <;> simp [memberChars, laidOutMembers] <;> omega
      obtain ⟨hroom, hroom'⟩ := Nat.max_le.mp hdepth
      have hvalue := readValue_laidOut j (level + 1) fuel room
        (memberChars l level false members ++ rest) h.1 hroom (by omega)
        (numberEnds_memberChars l level members rest)
      have hmembers := readMembers_memberChars members level fuel room false
        (Entries.insert key j.sortMembers sorted) rest h.2 hroom' (by omega)
      rw [readMembers, aheadInObject_memberChars]
      show (readString _ >>= _) = _
      rw [readString_escapeAll]
      show (readValue fuel room (l.behindColon ++ _) >>= _) = _
      rw [readValue_append l.allBlank_behindColon, hvalue]
      exact hmembers

end

/-- A text in a layout is read back as the value of what it writes. -/
theorem ofText_laidOut {j : Json} (h : j.NoDoubles) (hdepth : j.depth ≤ nestingLimit)
    {text : String} (htext : text.toList = j.laidOut l 0) : ofText text = .ok j.sortMembers := by
  have hread := readValue_laidOut l j 0 (fuelFor (j.laidOut l 0)) nestingLimit [] h hdepth
    (by rw [fuelFor]; omega) (by simp [NumberEnds])
  rw [List.append_nil] at hread
  rw [ofText, htext]
  show (readValue _ nestingLimit (j.laidOut l 0) >>= _) = _
  rw [hread]
  rfl

end Documents

theorem ofText_pretty {j : Json} (h : j.NoDoubles) (hdepth : j.depth ≤ nestingLimit) :
    ofText j.pretty = .ok j.sortMembers :=
  ofText_laidOut .pretty h hdepth j.toList_pretty

/-- Of the members with one key the last one is read, and the members are sorted. -/
example : ofText (Json.object [("b", .bool true), ("a", .array []), ("b", .null)]).pretty =
    .ok (.object [("a", .array []), ("b", .null)]) := by
  decide +kernel

end Rollout.Json
