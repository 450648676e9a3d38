import Rollout.Proofs.Yaml.Words
import Rollout.Yaml.Layout

/-!
# Tokens in flow collections

In a flow collection no block is open, so the state of the layout is simple: it is *calm* where no
margin is set and no key is required.  Whatever blanks are ahead of a calm state, `exists_ready`
gives the state in front of the next token, and one lemma for each token says which calm state it
leaves.  `Leads` joins such steps: reading on from the first state comes to reading on from the last.

What is ahead is told up to the blanks at its beginning (`At`), as a plain scalar takes the blanks
behind it along and other tokens leave them.  The candidate for a key is kept in mind by the lemma
for a literal, since the colon behind it puts a token in front of the literal's.
-/

namespace Rollout.Yaml

open Json (Piece literal piecesText)

namespace Layout

/-! ## Blanks -/

/-- Blanks between tokens: where a block could begin a tab may not stand. -/
def TabsFine (s : Layout) (gap : List Char) : Prop :=
  s.inFlow = true ∨ '\t' ∉ if s.keyAllowed then gap else gap.dropWhile fun c => !isBreak c

theorem TabsFine.line {s : Layout} {gap : List Char} (h : s.TabsFine gap)
    (hgap : ∀ c ∈ gap, isGap c = true) :
    ∀ c ∈ gap.takeWhile fun c => !isBreak c,
      (c = ' ' || ((s.inFlow || !s.keyAllowed) && c = '\t')) = true := by
  intro c hc
  have hbreak : isBreak c = false := by simpa using List.all_eq_true.mp List.all_takeWhile c hc
  have hmem : c ∈ gap := (List.takeWhile_sublist _).subset hc
  have hblank : c = ' ' ∨ c = '\t' := by simpa [isGap, isBlank, hbreak] using hgap c hmem
  rcases hblank with rfl | rfl
  · rfl
  · rcases h with hflow | htab
    · simp [hflow]
    · cases hkey : s.keyAllowed with
      | false => simp
      | true =>
        rw [hkey] at htab
        exact absurd hmem htab

theorem TabsFine.next {s : Layout} {gap more : List Char} {c : Char} (h : s.TabsFine gap)
    (hdrop : (gap.dropWhile fun c => !isBreak c) = c :: more) (cursor : Cursor) :
    TabsFine { s with cursor := cursor, keyAllowed := s.keyAllowed || !s.inFlow } more := by
  rcases h with hflow | htab
  · exact .inl hflow
  · cases hflow : s.inFlow with
    | true => exact .inl hflow
    | false =>
      refine .inr ?_
      have hmore : '\t' ∉ c :: more := by
        rw [← hdrop]
        cases hkey : s.keyAllowed with
        | false => rwa [hkey] at htab
        | true =>
          rw [hkey] at htab
          exact fun hmem => htab ((List.dropWhile_sublist _).subset hmem)
      simpa using fun hmem => hmore (List.mem_cons_of_mem c hmem)

/-- The blanks of one line are passed over, and the break behind them. -/
theorem skipBlanks_line {s : Layout} {line rest : List Char}
    (hahead : s.cursor.ahead = line ++ rest)
    (hline : ∀ c ∈ line, (c = ' ' || ((s.inFlow || !s.keyAllowed) && c = '\t')) = true)
    (hrest : ∀ c ∈ rest.head?, (isGap c = false ∨ isBreak c = true) ∧ c ≠ '#') (x : Char)
    (fuel : List Char) :
    s.skipBlanks (x :: fuel) =
      let here : Cursor := ⟨rest, line.foldl Position.past s.cursor.position⟩
      if rest.head?.any isBreak then
        skipBlanks fuel { s with cursor := here.skip 1, keyAllowed := s.keyAllowed || !s.inFlow }
      else { s with cursor := here } := by
  let test := fun c => c = ' ' || ((s.inFlow || !s.keyAllowed) && c = '\t')
  have hcursor : s.cursor = ⟨line ++ rest, s.cursor.position⟩ :=
    congrArg (Cursor.mk · s.cursor.position) hahead
  have hstop : ∀ c ∈ rest.head?, test c = false := by
    intro c hc
    have hblank : c ≠ ' ' ∧ c ≠ '\t' := by
      constructor
      · rintro rfl
        exact absurd (hrest _ hc).1 (by decide)
      · rintro rfl
        exact absurd (hrest _ hc).1 (by decide)
    simp [test, hblank]
  have hspan : s.cursor.skipWhile test = ⟨rest, line.foldl Position.past s.cursor.position⟩ := by
    rw [hcursor, Cursor.skipWhile, Cursor.span_append hline hstop]
  have hhash : (rest.head? == some '#') = false := by
    refine beq_eq_false_iff_ne.mpr fun heq => ?_
    exact (hrest '#' heq).2 rfl
  rw [skipBlanks]
  show (let here := s.cursor.skipWhile test; _) = _
  rw [hspan]
  dsimp only
  rw [hhash, if_neg Bool.false_ne_true]

/-- Blanks in front of a token are passed over, on this line and on the next ones. -/
theorem skipBlanks_gap : ∀ (fuel : List Char) (s : Layout) {gap rest : List Char},
    s.cursor.ahead = gap ++ rest → gap.length < fuel.length → (∀ c ∈ gap, isGap c = true) →
      (∀ c ∈ rest.head?, isGap c = false ∧ c ≠ '#') → s.TabsFine gap →
      ∃ k, s.skipBlanks fuel =
          { s with cursor := ⟨rest, gap.foldl Position.past s.cursor.position⟩, keyAllowed := k } ∧
        (s.inFlow = true → k = s.keyAllowed)
  | [], _, _, _, _, hfuel, _, _, _ => absurd hfuel (Nat.not_lt_zero _)
  | x :: fuel, s, gap, rest, hahead, hfuel, hgap, hrest, htabs => by
      have hsplit :
          gap = (gap.takeWhile fun c => !isBreak c) ++ gap.dropWhile fun c => !isBreak c :=
        List.takeWhile_append_dropWhile.symm
      have hline := htabs.line hgap
      have hhead := List.head?_dropWhile_not (fun c => !isBreak c) gap
      generalize (gap.takeWhile fun c => !isBreak c) = line at hsplit hline
      cases hdrop : gap.dropWhile fun c => !isBreak c with
      | nil =>
        rw [hdrop, List.append_nil] at hsplit
        subst hsplit
        have hbreak : rest.head?.any isBreak = false := by
          cases rest with
          | nil => rfl
          | cons c rest => exact isBreak_of_isGap (hrest c rfl).1
        refine ⟨s.keyAllowed, ?_, fun _ => rfl⟩
        rw [skipBlanks_line hahead hline fun c hc => ⟨.inl (hrest c hc).1, (hrest c hc).2⟩]
        dsimp only
        rw [hbreak, if_neg Bool.false_ne_true]
      | cons c more =>
        have hbreak : isBreak c = true := by simpa [hdrop] using hhead
        have hnext := htabs.next hdrop
        rw [hdrop] at hsplit
        subst hsplit
        have hhash : c ≠ '#' := by
          rintro rfl
          cases hbreak
        rw [List.append_assoc] at hahead
        rw [skipBlanks_line hahead hline fun d hd => Option.some.inj hd ▸ ⟨.inr hbreak, hhash⟩]
        show ∃ k, (if isBreak c = true then _ else _) = _ ∧ _
        rw [if_pos hbreak]
        let here : Cursor := ⟨more ++ rest, (line.foldl Position.past s.cursor.position).past c⟩
        obtain ⟨k, hread, hk⟩ := skipBlanks_gap fuel
          { s with cursor := here, keyAllowed := s.keyAllowed || !s.inFlow } rfl
          (by simp at hfuel; omega)
          (fun d hd => hgap d (List.mem_append_right _ (List.mem_cons_of_mem c hd))) hrest (hnext _)
        refine ⟨k, ?_, ?_⟩
        · rw [List.foldl_append, List.foldl_cons]
          exact hread
        · intro hflow
          rw [hk hflow]
          simp [hflow]

/-! ## Calm states -/

/-- No block is open and no key is required. -/
structure Calm (s : Layout) : Prop where
  count : s.count = s.tokens.length
  margin : s.margin = 0
  outerMargins : s.outerMargins = []
  candidate : ∀ c ∈ s.candidate, c.required = false
  outerCandidates : ∀ o ∈ s.outerCandidates, ∀ c ∈ o, c.required = false

theorem closeBlocks_of_calm {s : Layout} (h : s.Calm) (limit : Nat) : s.closeBlocks limit = s := by
  rw [closeBlocks, h.outerMargins]
  split
  · rfl
  · rw [closeBlocks.go, ← h.outerMargins]

theorem dropCandidate_of_calm {s : Layout} (h : s.Calm) :
    s.dropCandidate = some { s with candidate := none } := by
  rw [dropCandidate, if_neg]
  cases hcandidate : s.candidate with
  | none => exact Bool.false_ne_true
  | some c =>
    show ¬c.required = true
    rw [h.candidate c hcandidate]
    exact Bool.false_ne_true

theorem expire_of_not_required {candidate : Option Candidate}
    (h : ∀ c ∈ candidate, c.required = false) (here : Position) :
    ∃ kept, expire here candidate = some kept ∧ (∀ c ∈ kept, c.required = false) ∧
      ∀ c ∈ candidate, c.isStale here = false → kept = candidate := by
  cases candidate with
  | none => exact ⟨none, rfl, h, fun _ _ _ => rfl⟩
  | some c =>
    have hc := h c rfl
    cases hstale : c.isStale here with
    | false => exact ⟨some c, by simp [expire, hstale], h, fun _ _ _ => rfl⟩
    | true =>
      refine ⟨none, by simp [expire, hstale, hc], (by simp), fun d hd hfresh => ?_⟩
      rw [← Option.some.inj hd, hstale] at hfresh
      cases hfresh

theorem mapM_expire_of_not_required (here : Position) : ∀ {candidates : List (Option Candidate)},
    (∀ o ∈ candidates, ∀ c ∈ o, c.required = false) →
      ∃ kept, candidates.mapM (expire here) = some kept ∧ kept.length = candidates.length ∧
        ∀ o ∈ kept, ∀ c ∈ o, c.required = false
  | [], _ => ⟨[], rfl, rfl, List.forall_mem_nil _⟩
  | candidate :: candidates, h => by
      obtain ⟨hcandidate, hcandidates⟩ := List.forall_mem_cons.mp h
      obtain ⟨kept, hexpire, hkept, -⟩ := expire_of_not_required hcandidate here
      obtain ⟨others, hothers, hlength, hcalm⟩ := mapM_expire_of_not_required here hcandidates
      refine ⟨kept :: others, ?_, by rw [List.length_cons, hlength, List.length_cons],
        List.forall_mem_cons.mpr ⟨hkept, hcalm⟩⟩
      rw [List.mapM_cons, hexpire, hothers]
      rfl

/-! ## Reading on -/

/-- The state in front of a token: the blanks are passed and stale candidates forgotten. -/
structure Ready (s : Layout) (gap rest : List Char) (t : Layout) : Prop where
  calm : t.Calm
  cursor : t.cursor = ⟨rest, gap.foldl Position.past s.cursor.position⟩
  tokens : t.tokens = s.tokens
  level : t.outerCandidates.length = s.outerCandidates.length
  keyAllowed : s.inFlow = true → t.keyAllowed = s.keyAllowed
  candidate : ∀ c ∈ s.candidate, c.isStale t.cursor.position = false → t.candidate = some c
  reads : ∀ (x : Char) (fuel : List Char), readAll (x :: fuel) s =
    match rest with
    | [] => some s.tokens.reverse
    | c :: more => t.readToken c more >>= readAll fuel

theorem exists_ready {s : Layout} (h : s.Calm) {gap : List Char} (rest : List Char)
    (hahead : s.cursor.ahead = gap ++ rest) (hgap : ∀ c ∈ gap, isGap c = true)
    (hrest : ∀ c ∈ rest.head?, isGap c = false ∧ c ≠ '#') (htabs : s.TabsFine gap) :
    ∃ t, Ready s gap rest t := by
  obtain ⟨k, hskip, hk⟩ := skipBlanks_gap s.cursor.fuel s hahead
    (by rw [Cursor.fuel, hahead, List.length_cons, List.length_append]; omega) hgap hrest htabs
  let here := gap.foldl Position.past s.cursor.position
  obtain ⟨kept, hexpire, hkept, hfresh⟩ := expire_of_not_required h.candidate here
  obtain ⟨others, hothers, hlength, hcalm⟩ := mapM_expire_of_not_required here h.outerCandidates
  let t : Layout := { s with
    cursor := ⟨rest, here⟩, keyAllowed := k, candidate := kept, outerCandidates := others }
  have ht : t.Calm := ⟨h.count, h.margin, h.outerMargins, hkept, hcalm⟩
  have hexpired : expireCandidates (s.skipBlanks s.cursor.fuel) = some t := by
    rw [hskip, expireCandidates]
    show (expire here s.candidate >>= _) = _
    rw [hexpire]
    show (s.outerCandidates.mapM (expire here) >>= _) = _
    rw [hothers]
    rfl
  have hdrop : t.dropCandidate = some { t with candidate := none } := dropCandidate_of_calm ht
  refine ⟨t, ht, rfl, rfl, hlength, hk, fun c hc hstale => (hfresh c hc hstale).trans hc, ?_⟩
  intro x fuel
  rw [readAll]
  show (expireCandidates (s.skipBlanks s.cursor.fuel) >>= _) = _
  rw [hexpired]
  dsimp only [bind, Option.bind]
  -- no block closes in front of the token, as none is open
  rw [closeBlocks_of_calm ht]
  cases rest with
  | nil =>
    show ((t.closeBlocks 0).dropCandidate >>= _) = _
    rw [closeBlocks_of_calm ht, hdrop]
    rfl
  | cons c more => rfl

/-- Reading on from one state comes to reading on from another. -/
def Leads (s t : Layout) : Prop :=
  ∀ fuel : List Char, s.cursor.ahead.length < fuel.length →
    ∃ fuel' : List Char, t.cursor.ahead.length < fuel'.length ∧ readAll fuel s = readAll fuel' t

theorem Leads.trans {s t u : Layout} (hst : s.Leads t) (htu : t.Leads u) : s.Leads u := by
  intro fuel hfuel
  obtain ⟨fuel', hfuel', hread⟩ := hst fuel hfuel
  obtain ⟨fuel'', hfuel'', hread'⟩ := htu fuel' hfuel'
  exact ⟨fuel'', hfuel'', hread.trans hread'⟩

/-- The state behind a token. -/
theorem Ready.leads {s t u : Layout} {gap more : List Char} {c : Char}
    (h : Ready s gap (c :: more) t) (hahead : s.cursor.ahead = gap ++ c :: more)
    (htoken : t.readToken c more = some u) (hlength : u.cursor.ahead.length ≤ more.length) :
    s.Leads u := by
  intro fuel hfuel
  cases fuel with
  | nil => exact absurd hfuel (Nat.not_lt_zero _)
  | cons x fuel =>
    refine ⟨fuel, ?_, ?_⟩
    · rw [hahead] at hfuel
      simp only [List.length_append, List.length_cons] at hfuel
      omega
    · rw [h.reads]
      show (t.readToken c more >>= readAll fuel) = _
      rw [htoken]
      rfl

/-- A calm state in so many flow collections, told up to the blanks ahead. -/
structure At (s : Layout) (level : Nat) (tokens : List Token) (ahead : List Char) : Prop where
  calm : s.Calm
  level : s.outerCandidates.length = level
  tokens : s.tokens = tokens
  ahead : s.cursor.ahead.dropWhile isGap = ahead.dropWhile isGap

theorem inFlow_of_level {s : Layout} {level : Nat} (h : s.outerCandidates.length = level + 1) :
    s.inFlow = true := by
  rw [inFlow]
  cases houter : s.outerCandidates with
  | nil => rw [houter] at h; cases h
  | cons => rfl

theorem At.exists_ready {s : Layout} {level : Nat} {tokens : List Token} {more : List Char}
    {c : Char} (h : At s (level + 1) tokens (c :: more)) (hc : isGap c = false) (hhash : c ≠ '#') :
    ∃ passed t, s.cursor.ahead = passed ++ c :: more ∧ Ready s passed (c :: more) t := by
  have hdrop : (c :: more).dropWhile isGap = c :: more :=
    List.dropWhile_cons_of_neg (by rw [hc]; decide)
  have hahead : s.cursor.ahead = s.cursor.ahead.takeWhile isGap ++ c :: more := by
    rw [← hdrop, ← h.ahead, List.takeWhile_append_dropWhile]
  obtain ⟨t, ht⟩ := Layout.exists_ready h.calm _ hahead (List.all_eq_true.mp List.all_takeWhile)
    (fun d hd => Option.some.inj hd ▸ ⟨hc, hhash⟩) (.inl (inFlow_of_level h.level))
  exact ⟨_, t, hahead, ht⟩

/-! ## Tokens -/

theorem markCandidate_of_calm {s : Layout} (h : s.Calm) :
    ∃ marked, s.markCandidate = some { s with candidate := marked } ∧
      (∀ c ∈ marked, c.required = false) ∧
      (s.keyAllowed = true → marked = some ⟨s.count, s.cursor.position, false⟩) := by
  have hrequired : (!s.inFlow && decide (s.margin = s.column + 1)) = false := by
    rw [h.margin]
    simp
  rw [markCandidate]
  by_cases hkey : s.keyAllowed = true
  · refine ⟨some ⟨s.count, s.cursor.position, false⟩, ?_, ?_, fun _ => rfl⟩
    · rw [if_pos hkey, dropCandidate_of_calm h, hrequired]
      rfl
    · exact fun c hc => Option.some.inj hc ▸ rfl
  · rw [if_neg hkey]
    exact ⟨s.candidate, rfl, h.candidate, fun h => absurd h hkey⟩

section Indicators

variable {s t : Layout} {level : Nat} {tokens : List Token} {gap more : List Char} {c : Char}

theorem Ready.ahead_skip (h : Ready s gap (c :: more) t) : (t.cursor.skip 1).ahead = more := by
  rw [h.cursor]
  rfl

theorem Ready.ahead (h : Ready s gap (c :: more) t) : t.cursor.ahead = c :: more := by rw [h.cursor]

/-- An opening bracket opens a flow collection, where a key may begin. -/
theorem openFlow_of_ready (h : Ready s gap (c :: more) t) (token : Token) :
    ∃ u, t.openFlow token = some u ∧ u.keyAllowed = true ∧ u.cursor.ahead = more ∧
      At u (s.outerCandidates.length + 1) (token :: s.tokens) more := by
  obtain ⟨marked, hmark, hmarked, -⟩ := markCandidate_of_calm h.calm
  rw [openFlow, hmark]
  refine ⟨_, rfl, rfl, h.ahead_skip, ⟨?_, ?_, ?_, ?_⟩⟩
  · refine ⟨congrArg (· + 1) h.calm.count, h.calm.margin, h.calm.outerMargins,
      by simp [push, skip], ?_⟩
    exact List.forall_mem_cons.mpr ⟨hmarked, h.calm.outerCandidates⟩
  · exact congrArg (· + 1) h.level
  · exact congrArg (token :: ·) h.tokens
  · exact congrArg (List.dropWhile isGap) h.ahead_skip

/-- A closing bracket closes the innermost flow collection. -/
theorem closeFlow_of_ready (h : Ready s gap (c :: more) t)
    (hlevel : s.outerCandidates.length = level + 1) (token : Token) :
    ∃ u, t.closeFlow token = some u ∧ u.keyAllowed = false ∧ u.cursor.ahead = more ∧
      At u level (token :: s.tokens) more := by
  rw [closeFlow, dropCandidate_of_calm h.calm]
  cases houter : t.outerCandidates with
  | nil =>
    have := h.level
    rw [houter, hlevel] at this
    cases this
  | cons candidate outer =>
    have hcalm := h.calm.outerCandidates
    have hlength := h.level
    rw [houter] at hcalm hlength
    obtain ⟨hcandidate, houters⟩ := List.forall_mem_cons.mp hcalm
    refine ⟨_, rfl, rfl, h.ahead_skip, ⟨?_, ?_, ?_, ?_⟩⟩
    · exact ⟨congrArg (· + 1) h.calm.count, h.calm.margin, h.calm.outerMargins, hcandidate, houters⟩
    · exact Nat.succ.inj (hlength.trans hlevel)
    · exact congrArg (token :: ·) h.tokens
    · exact congrArg (List.dropWhile isGap) h.ahead_skip

/-- Behind a comma a key may begin. -/
theorem readComma_of_ready (h : Ready s gap (c :: more) t) :
    ∃ u, t.readComma = some u ∧ u.keyAllowed = true ∧ u.cursor.ahead = more ∧
      At u s.outerCandidates.length (.comma :: s.tokens) more := by
  rw [readComma, dropCandidate_of_calm h.calm]
  refine ⟨_, rfl, rfl, h.ahead_skip, ⟨?_, h.level, ?_, ?_⟩⟩
  · exact ⟨congrArg (· + 1) h.calm.count, h.calm.margin, h.calm.outerMargins, by simp [push, skip],
      h.calm.outerCandidates⟩
  · exact congrArg (Token.comma :: ·) h.tokens
  · exact congrArg (List.dropWhile isGap) h.ahead_skip

/-- A literal is a scalar, and the key of what a colon behind it makes of it. -/
theorem readQuoted_of_ready {pieces : List Piece} (hpieces : ∀ piece ∈ pieces, piece.Portable)
    (h : Ready s gap ('"' :: more) t) {rest : List Char}
    (hmore : literal pieces ++ rest = '"' :: more) :
    ∃ u, t.readQuoted false = some u ∧
      u.cursor = ⟨rest, ⟨t.cursor.position.line, t.column + (literal pieces).length⟩⟩ ∧
      At u s.outerCandidates.length (.scalar (piecesText pieces) false :: s.tokens) rest ∧
      (t.keyAllowed = true → u.candidate = some ⟨s.tokens.length, t.cursor.position, false⟩) := by
  obtain ⟨marked, hmark, hmarked, hcandidate⟩ := markCandidate_of_calm h.calm
  have hcursor : t.cursor = ⟨literal pieces ++ rest, t.cursor.position⟩ := by
    rw [hmore, h.cursor]
  have hquoted := quotedScalar_literal hpieces rest t.cursor.position
  rw [← hcursor] at hquoted
  rw [readQuoted, readWord, hmark]
  show ∃ u, ((quotedScalar false t.cursor).map _ >>= _) = some u ∧ _
  rw [hquoted]
  refine ⟨_, rfl, rfl, ⟨?_, h.level, congrArg (_ :: ·) h.tokens, rfl⟩, fun hkey => ?_⟩
  · exact ⟨congrArg (· + 1) h.calm.count, h.calm.margin, h.calm.outerMargins, hmarked,
      h.calm.outerCandidates⟩
  · rw [← h.tokens, ← h.calm.count]
    exact hcandidate hkey

/-- The colon behind a key puts the token of the key in front of it. -/
theorem readValue_of_ready {scalar : Token} {position : Position} (h : Ready s gap (':' :: more) t)
    (hlevel : s.outerCandidates.length = level + 1)
    (hcandidate : t.candidate = some ⟨tokens.length, position, false⟩)
    (htokens : s.tokens = scalar :: tokens) :
    ∃ u, t.readValue = some u ∧ u.cursor.ahead = more ∧
      At u (level + 1) (.value :: scalar :: .key :: tokens) more := by
  have hflow : t.inFlow = true := inFlow_of_level (h.level.trans hlevel)
  have hsince : t.count - tokens.length = 1 := by
    rw [h.calm.count, h.tokens, htokens, List.length_cons]
    omega
  have hinsert : insertAt tokens.length .key t =
      { t with tokens := scalar :: .key :: tokens, count := t.count + 1 } := by
    rw [insertAt, hsince, h.tokens, htokens]
    rfl
  have hopen : openBlock position.column tokens.length .blockMapping
      { t with tokens := scalar :: .key :: tokens, count := t.count + 1 } =
      { t with tokens := scalar :: .key :: tokens, count := t.count + 1 } := by
    rw [openBlock]
    show (if (!t.inFlow && _) = true then _ else _) = _
    rw [hflow]
    rfl
  have hcount : t.count = tokens.length + 1 := by
    rw [h.calm.count, h.tokens, htokens, List.length_cons]
  rw [readValue, hcandidate]
  dsimp only
  rw [hinsert, hopen]
  refine ⟨_, rfl, h.ahead_skip, ⟨?_, h.level.trans hlevel, rfl,
    congrArg (List.dropWhile isGap) h.ahead_skip⟩⟩
  exact ⟨congrArg (· + 2) hcount, h.calm.margin, h.calm.outerMargins, by simp [push, skip],
    h.calm.outerCandidates⟩

/-- A word is a scalar, which ends in front of an indicator. -/
theorem readPlain_of_ready {word rest blanks : List Char} {d : Char} {ahead : List Char}
    (hword : ∀ c ∈ word, isWordChar c = true) (h : Ready s gap (word ++ rest) t)
    (hlevel : s.outerCandidates.length = level + 1) (hends : EndsWord rest blanks d ahead) :
    ∃ u, t.readPlain = some u ∧ u.cursor.ahead = d :: ahead ∧
      At u (level + 1) (.scalar (String.ofList word) true :: s.tokens) rest := by
  obtain ⟨marked, hmark, hmarked, -⟩ := markCandidate_of_calm h.calm
  have hflow : t.inFlow = true := inFlow_of_level (h.level.trans hlevel)
  have hread := plainScalar_word hends hword (gap.foldl Position.past s.cursor.position)
  rw [← h.cursor, ← hflow, ← h.calm.margin] at hread
  rw [readPlain, hmark]
  show ∃ u, (plainScalar t.inFlow t.margin t.cursor >>= _) = some u ∧ _
  rw [hread]
  refine ⟨_, rfl, rfl, ⟨?_, h.level.trans hlevel, congrArg (_ :: ·) h.tokens, ?_⟩⟩
  · exact ⟨congrArg (· + 1) h.calm.count, h.calm.margin, h.calm.outerMargins, hmarked,
      h.calm.outerCandidates⟩
  · rw [hends.eq, List.dropWhile_append_of_pos hends.gap]
    rfl

end Indicators

/-! ## Which token is ahead -/

section Ahead

variable {s : Layout} {c : Char} {more : List Char}

/-- A marker begins with three equal marks. -/
theorem not_atMarker (hahead : s.cursor.ahead = c :: more) {mark : Char}
    (h : c ≠ mark ∨ ∀ d ∈ more.head?, d ≠ mark) : ¬s.cursor.atMarker mark = true := by
  rw [Cursor.atMarker, hahead]
  rcases more with _ | ⟨d, _ | ⟨e, more⟩⟩
  · simp
  · simp
  · rcases h with h | h
    · simp [h]
    · simp [h d rfl]

/-- The indicators that mean the same in every place, and how they are read. -/
inductive Indicates : Char → (Layout → Option Layout) → Prop
  | openArray : Indicates '[' (openFlow .flowSequence)
  | openObject : Indicates '\x7b' (openFlow .flowMapping)
  | closeArray : Indicates ']' (closeFlow .flowSequenceEnd)
  | closeObject : Indicates '\x7d' (closeFlow .flowMappingEnd)
  | comma : Indicates ',' readComma
  | quote : Indicates '"' (readQuoted false)

theorem readToken_of_indicates {read : Layout → Option Layout} (h : Indicates c read)
    (hahead : s.cursor.ahead = c :: more) : s.readToken c more = read s := by
  cases h
  all_goals
    rw [readToken, if_neg (by simp), if_neg (not_atMarker hahead (.inl (by decide))),
      if_neg (not_atMarker hahead (.inl (by decide)))]

theorem readToken_colon (hahead : s.cursor.ahead = ':' :: more) (hflow : s.inFlow = true) :
    s.readToken ':' more = s.readValue := by
  unfold readToken
  rw [if_neg (by simp), if_neg (not_atMarker hahead (.inl (by decide))),
    if_neg (not_atMarker hahead (.inl (by decide)))]
  show (if _ then _ else if _ then _ else if (true && (s.inFlow || _)) = true then s.readValue
    else _) = _
  rw [hflow]
  rfl

theorem isGap_of_isAlphanum (h : c.isAlphanum = true) : isGap c = false :=
  isGap_of_test h (by decide)

theorem not_mem_indicators (h : c.isAlphanum = true) : c ∉ indicators := by
  have hnone : indicators.any Char.isAlphanum = false := by decide
  exact fun hmem => List.any_eq_false.mp hnone c hmem h

/-- What begins a word: a letter or a digit, or a minus in front of a digit. -/
def BeginsWord (c : Char) (more : List Char) : Prop :=
  c.isAlphanum = true ∨ c = '-' ∧ ∃ d ∈ more.head?, d.isDigit = true

theorem readToken_word (hahead : s.cursor.ahead = c :: more) (hword : BeginsWord c more) :
    s.readToken c more = s.readPlain := by
  have hne : ∀ b : Char, b.isAlphanum = false → b ≠ '-' → c ≠ b := by
    intro b hb hdash
    rcases hword with h | ⟨rfl, -⟩
    · exact ne_of_test h hb
    · exact hdash.symm
  obtain ⟨hstart, hitem, hplain⟩ : (c ≠ '-' ∨ ∀ d ∈ more.head?, d ≠ '-') ∧
      (decide (c = '-') && wordEnds more) = false ∧
      (decide (c = '-') || decide (c = '?') || decide (c = ':') ||
        !(isGap c || indicators.contains c)) = true := by
    rcases hword with h | ⟨rfl, d, hd, hdigit⟩
    · have hdash : c ≠ '-' := by
        rintro rfl
        exact absurd h (by decide)
      exact ⟨.inl hdash, by simp [hdash], by simp [isGap_of_isAlphanum h, not_mem_indicators h]⟩
    · obtain ⟨behind, rfl⟩ := List.head?_eq_some_iff.mp hd
      have halpha : d.isAlphanum = true := by rw [Char.isAlphanum, hdigit, Bool.or_true]
      refine ⟨.inr fun e he => ?_, isGap_of_isAlphanum halpha, rfl⟩
      obtain rfl := Option.some.inj he
      rintro rfl
      exact absurd hdigit (by decide)
  unfold readToken
  rw [if_neg (by simp [hne '%' (by decide) (by decide)]), if_neg (not_atMarker hahead hstart),
    if_neg (not_atMarker hahead (.inl (hne '.' (by decide) (by decide))))]
  split
  all_goals try exact absurd rfl (hne _ (by decide) (by decide))
  rw [if_neg (by rw [hitem]; decide), if_neg (by simp [hne '?' (by decide) (by decide)]),
    if_neg (by simp [hne ':' (by decide) (by decide)]),
    if_neg (by simp [hne '|' (by decide) (by decide)]),
    if_neg (by simp [hne '>' (by decide) (by decide)]), if_pos hplain]

end Ahead

end Layout

end Rollout.Yaml
