import Rollout.Deployment.Record.Reading
import Rollout.Proofs.Json.Reading
import Rollout.Proofs.SortedMap

/-!
# Reading back records

The text of a record is read back as the record, in whatever layout it is written
(`Record.ofText_laidOut`).

`Record.content` gives the content of a record field by field.  `Record.written` are the fields that
stand in its text, all but the optional ones that are absent.  The reader fills a draft with them
one by one (`readFields_memberChars`), the draft then answers for each field what the record holds, or
nothing where the record holds nothing (`Draft.get_fill`), and that is all that its completion looks
at (`Draft.finish_eq`).
-/

namespace Rollout.Record

open Json

/-! ## Drafts -/

namespace Field

theorem ofKey?_key (f : Field) : ofKey? f.key = some f := by
  cases f <;> decide

theorem mem_all (f : Field) : f ∈ all := by
  cases f <;> decide

end Field

namespace Draft

/-- What a field is filled with. -/
def get (d : Draft) : (f : Field) → Option f.shape.Content
  | .deployment => d.deployment
  | .time => d.time
  | .object => d.object
  | .environment => d.environment
  | .distribution => d.distribution
  | .distributionId => d.distributionId
  | .executions => d.executions
  | .errorMessage => d.errorMessage
  | .errorCode => d.errorCode
  | .tags => d.tags
  | .version => d.version
  | .stack => d.stack
  | .packaged => d.packaged
  | .planStatus => d.planStatus

theorem has_eq (d : Draft) (f : Field) : d.has f = (d.get f).isSome := by
  cases f <;> rfl

theorem get_put_self (d : Draft) (f : Field) (c : f.shape.Content) :
    (d.put f c).get f = some c := by
  cases f <;> rfl

theorem get_put_of_ne (d : Draft) {f g : Field} (h : g ≠ f) (c : f.shape.Content) :
    (d.put f c).get g = d.get g := by
  cases f <;> cases g <;> first | rfl | exact absurd rfl h

theorem get_empty (f : Field) : Draft.get {} f = none := by
  cases f <;> rfl

end Draft

/-! ## The contents of a record -/

/-- What a record holds in a field. -/
def content (r : Record) : (f : Field) → f.shape.Content
  | .deployment => r.deployment
  | .time => r.time
  | .object => r.object
  | .environment => r.environment
  | .distribution => r.distribution
  | .distributionId => r.distributionId
  | .executions => r.executions
  | .errorMessage => r.errorMessage
  | .errorCode => r.errorCode
  | .tags => r.tags
  | .version => r.version
  | .stack => r.stack
  | .packaged => r.packaged
  | .planStatus => r.planStatus

/-- Whether a content is left out of a text. -/
def Shape.absent : (s : Shape) → s.Content → Bool
  | .optionalText, c => c.isNone
  | _, _ => false

/-- The document of a content. -/
def Shape.document : (s : Shape) → s.Content → Json
  | .text, c => .string c
  | .optionalText, some c => .string c
  | .optionalText, none => .null
  | .time, c => .number (.ofUInt64 c)
  | .textMap, c => Record.textMap c
  | .flag, c => .bool c

/-- The fields that stand in the text of a record. -/
def written (r : Record) : List Field := Field.all.filter fun f => !f.shape.absent (r.content f)

/-- The member that a field becomes. -/
def member (r : Record) (f : Field) : String × Json := (f.key, f.shape.document (r.content f))

/-- A draft after some fields of a record were filled in. -/
def Draft.fill (r : Record) (d : Draft) (fields : List Field) : Draft :=
  fields.foldl (fun d f => d.put f (r.content f)) d

theorem Draft.get_fill (r : Record) : ∀ (fields : List Field) (d : Draft) (f : Field),
    (d.fill r fields).get f = if f ∈ fields then some (r.content f) else d.get f
  | [], d, f => rfl
  | g :: rest, d, f => by
      show ((d.put g (r.content g)).fill r rest).get f = _
      rw [Draft.get_fill r rest]
      by_cases hrest : f ∈ rest
      · simp [hrest]
      · by_cases hg : f = g
        · subst hg
          simp [hrest, get_put_self]
        · simp [hrest, hg, get_put_of_ne d hg]

/-- Only optional contents can be absent, and then hold nothing. -/
theorem join_eq {o : Option (Option String)} {c : Option String}
    (h : o = if Shape.optionalText.absent c then none else some c) : o.join = c := by
  cases c <;> exact h ▸ rfl

/-- A draft that lacks no more than what is absent from a record is finished as this record. -/
theorem Draft.finish_eq (r : Record) (d : Draft)
    (h : ∀ f, d.get f = if f.shape.absent (r.content f) then none else some (r.content f)) :
    d.finish = .ok r := by
  have hdeployment : d.deployment = some r.deployment := h .deployment
  have htime : d.time = some r.time := h .time
  have hobject : d.object = some r.object := h .object
  have hexecutions : d.executions = some r.executions := h .executions
  have htags : d.tags = some r.tags := h .tags
  have hstack : d.stack = some r.stack := h .stack
  have hpackaged : d.packaged = some r.packaged := h .packaged
  have henvironment : d.environment.join = r.environment := join_eq (h .environment)
  have hdistribution : d.distribution.join = r.distribution := join_eq (h .distribution)
  have hdistributionId : d.distributionId.join = r.distributionId := join_eq (h .distributionId)
  have herrorMessage : d.errorMessage.join = r.errorMessage := join_eq (h .errorMessage)
  have herrorCode : d.errorCode.join = r.errorCode := join_eq (h .errorCode)
  have hversion : d.version.join = r.version := join_eq (h .version)
  have hplanStatus : d.planStatus.join = r.planStatus := join_eq (h .planStatus)
  rw [finish, hdeployment, htime, hobject, hstack]
  simp only [hexecutions, htags, hpackaged, henvironment, hdistribution, hdistributionId,
    herrorMessage, herrorCode, hversion, hplanStatus]
  rfl

theorem mem_written {r : Record} {f : Field} :
    f ∈ r.written ↔ f.shape.absent (r.content f) = false := by
  simp [written, Field.mem_all]

/-- A record whose written fields were all filled in is finished as this record. -/
theorem finish_fill_written (r : Record) : (Draft.fill r {} r.written).finish = .ok r := by
  refine Draft.finish_eq r _ fun f => ?_
  simp only [Draft.get_fill, Draft.get_empty, mem_written]
  cases f.shape.absent (r.content f) <;> rfl

/-! ## The document of a record -/

/-- An optional field becomes a member unless it is absent. -/
theorem members_optional (r : Record) (f : Field) (o : Option String)
    (habsent : f.shape.absent (r.content f) = Shape.optionalText.absent o)
    (hdocument : f.shape.document (r.content f) = Shape.optionalText.document o) :
    ([f].filter fun f => !f.shape.absent (r.content f)).map r.member = optional f.key o := by
  cases o with
  | none =>
    have habsent : f.shape.absent (r.content f) = true := habsent
    simp [habsent, optional]
  | some s =>
    have habsent : f.shape.absent (r.content f) = false := habsent
    have hdocument : f.shape.document (r.content f) = .string s := hdocument
    simp [habsent, hdocument, member, optional]

theorem document_eq (r : Record) : r.document = .object (r.written.map r.member) := by
  have hall : Field.all = [.deployment, .time, .object] ++ [.environment] ++ [.distribution] ++
      [.distributionId] ++ [.executions] ++ [.errorMessage] ++ [.errorCode] ++ [.tags] ++
      [.version] ++ [.stack, .packaged] ++ [.planStatus] := rfl
  rw [written, hall]
  simp only [List.filter_append, List.map_append]
  rw [members_optional r .environment r.environment rfl rfl,
    members_optional r .distribution r.distribution rfl rfl,
    members_optional r .distributionId r.distributionId rfl rfl,
    members_optional r .errorMessage r.errorMessage rfl rfl,
    members_optional r .errorCode r.errorCode rfl rfl,
    members_optional r .version r.version rfl rfl,
    members_optional r .planStatus r.planStatus rfl rfl]
  rfl

/-! ## Reading contents -/

/-- Contents are read from behind the blanks in front of them. -/
theorem readContent_append {blanks : List Char} (h : AllBlank blanks) (s : Shape) (cs : List Char) :
    readContent s (blanks ++ cs) = readContent s cs := by
  have hskip := skipBlanks_append h cs
  cases s with
  | text => simp only [readContent, readText, hskip]
  | optionalText => simp only [readContent, readOptionalText, hskip]
  | time => simp only [readContent, readTime, hskip]
  | textMap => simp only [readContent, readTextMap, hskip]
  | flag => simp only [readContent, readFlag, hskip]

theorem skipBlanks_quote (s : String) (rest : List Char) :
    skipBlanks (quote s ++ rest) = '"' :: (escapeAll s.toList ++ '"' :: rest) := by
  show skipBlanks ('"' :: (escapeAll s.toList ++ ['"']) ++ rest) = _
  rw [List.cons_append, List.append_assoc]
  rfl

theorem readText_quote (s : String) (rest : List Char) :
    readText (quote s ++ rest) = .ok (s, rest) := by
  rw [readText, skipBlanks_quote]
  show syntaxFault (readString _) = _
  rw [readString_escapeAll]
  rfl

theorem timeOf_integerNumber (t : UInt64) : timeOf (integerNumber false t.toNat) = .ok t := by
  have hrange : -2 ^ 63 ≤ (t.toNat : Int) ∧ (t.toNat : Int) < 2 ^ 64 := by
    have := t.toNat_lt
    omega
  have hnumber : integerNumber false t.toNat = .integer t.toNat hrange := by
    rw [integerNumber, Bool.false_and, if_neg Bool.false_ne_true, if_neg Bool.false_ne_true,
      Number.ofInt?, dif_pos hrange]
  rw [hnumber, timeOf, if_neg (by omega)]
  simp

/-- In front of a digit a number is read. -/
theorem readTime_of_isDigit {c : Char} (hc : c.isDigit = true) (cs : List Char) :
    readTime (c :: cs) = (syntaxFault (readMagnitude false (c :: cs))).bind fun p =>
      (timeOf p.1).map fun t => (t, p.2) := by
  have hskip : skipBlanks (c :: cs) = c :: cs := by
    rw [skipBlanks, isBlank_of_isDigit hc]
    rfl
  have hminus : c ≠ '-' := by
    rintro rfl
    exact absurd hc (by decide)
  rw [readTime, hskip]
  split
  next h => cases h
  next h => exact absurd (List.cons.inj h).1 hminus
  next d rest _ h =>
    obtain ⟨rfl, rfl⟩ := List.cons.inj h
    rw [if_pos hc]
    cases readMagnitude false (c :: cs) with
    | error e => rfl
    | ok p =>
      obtain ⟨n, rest⟩ := p
      show (timeOf n).bind (fun t => .ok (t, rest)) = (timeOf n).map _
      cases timeOf n <;> rfl

theorem readTime_chars (t : UInt64) {rest : List Char} (hends : NumberEnds rest) :
    readTime ((Number.ofUInt64 t).chars ++ rest) = .ok (t, rest) := by
  have hchars : (Number.ofUInt64 t).chars = Nat.toDigits 10 t.toNat := by
    rw [Number.ofUInt64, Number.chars, if_neg (by omega)]
    rfl
  have hread := readMagnitude_toDigits false t.toNat_lt hends
  cases hdigits : Nat.toDigits 10 t.toNat with
  | nil => exact absurd hdigits Nat.toDigits_ne_nil
  | cons c more =>
    have hc : c.isDigit = true :=
      Nat.isDigit_of_mem_toDigits (by decide) (by decide) (hdigits ▸ List.mem_cons_self)
    rw [hdigits, List.cons_append] at hread
    rw [hchars, hdigits, List.cons_append, readTime_of_isDigit hc, hread, syntaxFault, Except.bind,
      timeOf_integerNumber, Except.map]

theorem readFlag_laidOut (l : Layout) (level : Nat) (b : Bool) (rest : List Char) :
    readFlag ((Json.bool b).laidOut l level ++ rest) = .ok (b, rest) := by
  cases b <;> rfl

theorem readOptionalText_quote (s : String) (rest : List Char) :
    readOptionalText (quote s ++ rest) = .ok (some s, rest) := by
  have h := readText_quote s rest
  rw [readText, skipBlanks_quote] at h
  rw [readOptionalText, skipBlanks_quote]
  show (readText ('"' :: (escapeAll s.toList ++ '"' :: rest))).map _ = _
  rw [readText]
  show (syntaxFault (readString _)).map _ = _
  rw [readString_escapeAll]
  rfl

/-- One member of a map of texts. -/
theorem readTextMembers_step {fuel : Nat} {first : Bool} {m : SortedMap String String}
    {key value : String} {cs keyed colon valued rest : List Char}
    (hahead : aheadInObject first cs = .ok (.another keyed))
    (hkey : readString keyed = .ok (key, colon)) (hcolon : readColon colon = .ok valued)
    (hvalue : readText valued = .ok (value, rest)) :
    readTextMembers (fuel + 1) first m cs =
      readTextMembers fuel false (m.insert key value) rest := by
  rw [readTextMembers, hahead]
  simp only [syntaxFault, bind, Except.bind, hkey, hcolon, hvalue]

/-- The entries of a text map are added to those read before. -/
theorem readTextMembers_memberChars (l : Layout) (level : Nat) (entries : List (String × String)) :
    ∀ (fuel : Nat) (first : Bool) (m : SortedMap String String) (rest : List Char),
      entries.length < fuel →
    readTextMembers fuel first m
        (memberChars l level first (entries.map fun e => (e.1, .string e.2)) ++ rest) =
      .ok (entries.foldl (fun m e => m.insert e.1 e.2) m, rest) := by
  induction entries with
  | nil =>
    intro fuel first m rest h
    cases fuel with
    | zero => exact absurd h (Nat.lt_irrefl _)
    | succ fuel =>
      rw [readTextMembers, List.map_nil, aheadInObject_end]
      rfl
  | cons e entries ih =>
    intro fuel first m rest h
    cases fuel with
    | zero => exact absurd h (Nat.not_lt_zero _)
    | succ fuel =>
      have hahead := aheadInObject_memberChars l level first e.1 (.string e.2)
        (entries.map fun e => (e.1, .string e.2)) rest
      have hvalue : ∀ rest, readText (l.behindColon ++ (quote e.2 ++ rest)) = .ok (e.2, rest) :=
        fun rest => (readContent_append l.allBlank_behindColon .text _).trans (readText_quote e.2 rest)
      rw [List.map_cons,
        readTextMembers_step hahead (readString_escapeAll e.1 _) rfl (hvalue _)]
      exact ih fuel false (m.insert e.1 e.2) rest (Nat.lt_of_succ_lt_succ h)

theorem readTextMap_textMap (l : Layout) (level : Nat) (m : SortedMap String String)
    (rest : List Char) : readTextMap ((textMap m).laidOut l level ++ rest) = .ok (m, rest) := by
  let members : List (String × Json) := m.entries.map fun e => (e.1, .string e.2)
  have hlength : m.entries.length < (memberChars l level true members ++ rest).length + 1 := by
    have h := length_lt_length_memberChars l level true members
    rw [List.length_map] at h
    rw [List.length_append]
    omega
  rw [textMap, laidOut_object, List.cons_append]
  show readTextMembers ((memberChars l level true members ++ rest).length + 1) true .empty
    (memberChars l level true members ++ rest) = _
  rw [readTextMembers_memberChars l level m.entries _ true .empty rest hlength,
    SortedMap.foldl_insert_empty, SortedMap.ofList_entries]

/-- A content that is not absent is read back, in front of what may follow it in an object. -/
theorem readContent_document (l : Layout) (level : Nat) (s : Shape) (c : s.Content)
    (hc : s.absent c = false) {rest : List Char} (hends : NumberEnds rest) :
    readContent s ((s.document c).laidOut l level ++ rest) = .ok (c, rest) := by
  cases s with
  | text => exact readText_quote c rest
  | optionalText =>
    cases c with
    | none => cases hc
    | some c => exact readOptionalText_quote c rest
  | time => exact readTime_chars c hends
  | textMap => exact readTextMap_textMap l level c rest
  | flag => exact readFlag_laidOut l level c rest

/-! ## Reading records -/

/-- One member of a field that is not filled in yet. -/
theorem readFields_step {fuel : Nat} {first : Bool} {d : Draft} {f : Field} {c : f.shape.Content}
    {cs keyed colon value rest : List Char} (hfresh : d.has f = false)
    (hahead : aheadInObject first cs = .ok (.another keyed))
    (hkey : readString keyed = .ok (f.key, colon)) (hcolon : readColon colon = .ok value)
    (hcontent : readContent f.shape value = .ok (c, rest)) :
    readFields (fuel + 1) first d cs = readFields fuel false (d.put f c) rest := by
  rw [readFields, hahead]
  simp only [syntaxFault, bind, Except.bind, hkey, Field.ofKey?_key, hfresh, hcolon, hcontent]
  rfl

/-- The members of a record are filled in after those read before. -/
theorem readFields_memberChars (l : Layout) (level : Nat) (r : Record) (fields : List Field) :
    ∀ (fuel : Nat) (first : Bool) (d : Draft) (rest : List Char), fields.length < fuel →
    fields.Nodup → (∀ f ∈ fields, d.has f = false ∧ f.shape.absent (r.content f) = false) →
    readFields fuel first d (memberChars l level first (fields.map r.member) ++ rest) =
      .ok (d.fill r fields, rest) := by
  induction fields with
  | nil =>
    intro fuel first d rest h _ _
    cases fuel with
    | zero => exact absurd h (Nat.lt_irrefl _)
    | succ fuel =>
      rw [readFields, List.map_nil, aheadInObject_end]
      rfl
  | cons f fields ih =>
    intro fuel first d rest h hnodup hfields
    obtain ⟨hfresh, habsent⟩ := hfields f List.mem_cons_self
    obtain ⟨hf, hnodup⟩ := List.nodup_cons.mp hnodup
    cases fuel with
    | zero => exact absurd h (Nat.not_lt_zero _)
    | succ fuel =>
      have hlater : ∀ g ∈ fields, (d.put f (r.content f)).has g = false ∧
          g.shape.absent (r.content g) = false := by
        intro g hg
        have hne : g ≠ f := fun h => hf (h ▸ hg)
        rw [Draft.has_eq, Draft.get_put_of_ne d hne, ← Draft.has_eq]
        exact hfields g (List.mem_cons_of_mem _ hg)
      have hcontent := readContent_document l (level + 1) f.shape (r.content f) habsent
        (numberEnds_memberChars l level (fields.map r.member) rest)
      rw [← readContent_append l.allBlank_behindColon] at hcontent
      have hahead := aheadInObject_memberChars l level first f.key (f.shape.document (r.content f))
        (fields.map r.member) rest
      rw [List.map_cons, member,
        readFields_step hfresh hahead (readString_escapeAll f.key _) rfl hcontent]
      exact ih fuel false (d.put f (r.content f)) rest (Nat.lt_of_succ_lt_succ h) hnodup hlater

/-- A record is read back from its text in any layout. -/
theorem ofText_laidOut (l : Layout) (r : Record) {text : String}
    (htext : text.toList = r.document.laidOut l 0) : ofText text = .ok r := by
  have hlength : r.written.length <
      (memberChars l 0 true (r.written.map r.member)).length + 1 := by
    have h := length_lt_length_memberChars l 0 true (r.written.map r.member)
    rw [List.length_map] at h
    omega
  have hnodup : r.written.Nodup := (show Field.all.Nodup by decide).sublist List.filter_sublist
  have hread := readFields_memberChars l 0 r r.written _ true {} [] hlength hnodup fun f hf => by
    rw [Draft.has_eq, Draft.get_empty]
    exact ⟨rfl, mem_written.mp hf⟩
  rw [List.append_nil] at hread
  have hchars : skipBlanks text.toList = '{' :: memberChars l 0 true (r.written.map r.member) := by
    rw [htext, document_eq, laidOut_object]
    rfl
  rw [ofText, hchars]
  simp only [hread, bind, Except.bind, finish_fill_written]
  rfl

theorem ofText_text (r : Record) : ofText r.text = .ok r :=
  ofText_laidOut .compact r (toList_compact r.document)

theorem ofText_pretty (r : Record) : ofText r.document.pretty = .ok r :=
  ofText_laidOut .pretty r (toList_pretty r.document)

end Rollout.Record
