import Rollout.Yaml.Scalar
import Rollout.Yaml.Tag

/-!
# The tokens of a YAML text

`Token.ofText?` cuts a text into tokens and turns its layout into tokens too.  A block collection
opens where an entry stands at or behind the margin and closes before the first token left of its
column; the *margin*, one more than the column of the innermost block, carries this, and flow
collections ignore it.

Whether a scalar is a key shows only at the colon behind it.  So the place of the last token that may
begin a key is kept as a *candidate*, one for each flow collection around, and a colon puts the key
token there.  A candidate holds on its own line, for 1024 characters; at the column of a block it has
to become a key.
-/

namespace Rollout.Yaml

/-- A place where a key may begin. -/
structure Candidate where
  /-- The number of tokens before it. -/
  place : Nat
  position : Position
  /-- Whether it stands where the block around it needs a key. -/
  required : Bool

/-- Whether a candidate no longer holds at a position. -/
def Candidate.isStale (c : Candidate) (here : Position) : Bool :=
  c.position.line < here.line || c.position.column + 1024 < here.column

/-- A text cut up to a cursor. -/
structure Layout where
  cursor : Cursor
  /-- The tokens so far, the last one first. -/
  tokens : List Token
  /-- Their number. -/
  count : Nat
  margin : Nat
  /-- The margins of the blocks around the innermost one. -/
  outerMargins : List Nat
  /-- Whether a key, or an entry of a new block, may begin here. -/
  keyAllowed : Bool
  candidate : Option Candidate
  /-- The candidates of the flow collections around, one for each that is open. -/
  outerCandidates : List (Option Candidate)

namespace Layout

/-- Nothing is cut yet. -/
def start (cursor : Cursor) : Layout :=
  ⟨cursor, [], 0, 0, [], true, none, []⟩

/-- Whether a flow collection is open. -/
def inFlow (s : Layout) : Bool := !s.outerCandidates.isEmpty

/-- The column of the next character. -/
def column (s : Layout) : Nat := s.cursor.column

/-! ## Adding tokens -/

/-- Add a token. -/
def push (t : Token) (s : Layout) : Layout := { s with tokens := t :: s.tokens, count := s.count + 1 }

/-- Put a token at an earlier place. -/
def insertAt (place : Nat) (t : Token) (s : Layout) : Layout :=
  let since := s.count - place
  { s with tokens := s.tokens.take since ++ t :: s.tokens.drop since, count := s.count + 1 }

/-- Pass over characters. -/
def skip (n : Nat) (s : Layout) : Layout := { s with cursor := s.cursor.skip n }

/-! ## Blocks -/

/-- Close the blocks whose margin exceeds the limit. -/
def closeBlocks (limit : Nat) (s : Layout) : Layout :=
  if s.inFlow then s else go s.margin s.outerMargins s
where
  /-- Close from the innermost margin outwards. -/
  go (margin : Nat) : List Nat → Layout → Layout
    | [], s => { s with margin := margin, outerMargins := [] }
    | outer :: rest, s =>
      if limit < margin then go outer rest (push .blockEnd s)
      else { s with margin := margin, outerMargins := outer :: rest }

/-- Open a block at a column, unless one at this column is open already; its token goes to the given
place. -/
def openBlock (column place : Nat) (t : Token) (s : Layout) : Layout :=
  if !s.inFlow && s.margin ≤ column then
    insertAt place t { s with margin := column + 1, outerMargins := s.margin :: s.outerMargins }
  else s

/-! ## Keys -/

/-- Forget a candidate that no longer holds; one that had to become a key is a fault. -/
def expire (here : Position) : Option Candidate → Option (Option Candidate)
  | some c =>
    if c.isStale here then (if c.required then none else some none) else some (some c)
  | none => some none

/-- Forget the candidates that no longer hold. -/
def expireCandidates (s : Layout) : Option Layout := do
  let here := s.cursor.position
  return { s with
    candidate := ← expire here s.candidate
    outerCandidates := ← s.outerCandidates.mapM (expire here) }

/-- Forget the candidate; one that had to become a key is a fault. -/
def dropCandidate (s : Layout) : Option Layout :=
  if s.candidate.any (·.required) then none else some { s with candidate := none }

/-- The next token may begin a key, if one is allowed here. -/
def markCandidate (s : Layout) : Option Layout :=
  if s.keyAllowed then do
    let required := !s.inFlow && s.margin = s.column + 1
    let s ← s.dropCandidate
    return { s with candidate := some ⟨s.count, s.cursor.position, required⟩ }
  else some s

/-! ## Indicators -/

/-- The beginning or the end of a document, which closes all blocks. -/
def readMarker (t : Token) (s : Layout) : Option Layout := do
  let s ← (s.closeBlocks 0).dropCandidate
  return ({ s with keyAllowed := false }.skip 3).push t

/-- A directive, which takes the rest of its line. -/
def readDirective (s : Layout) : Option Layout := do
  let s ← (s.closeBlocks 0).dropCandidate
  let (t, there) ← Yaml.readDirective s.cursor
  return push t { s with keyAllowed := false, cursor := ← endOfLine there }

/-- An opening bracket. -/
def openFlow (t : Token) (s : Layout) : Option Layout := do
  let s ← s.markCandidate
  let s := { s with
    keyAllowed := true, candidate := none, outerCandidates := s.candidate :: s.outerCandidates }
  return (s.skip 1).push t

/-- A closing bracket. -/
def closeFlow (t : Token) (s : Layout) : Option Layout := do
  let s ← s.dropCandidate
  let s := match s.outerCandidates with
    | [] => s
    | candidate :: rest => { s with candidate := candidate, outerCandidates := rest }
  return ({ s with keyAllowed := false }.skip 1).push t

/-- The comma of a flow collection. -/
def readComma (s : Layout) : Option Layout := do
  let s ← s.dropCandidate
  return ({ s with keyAllowed := true }.skip 1).push .comma

/-- An indicator that begins an entry of a block of the given kind. -/
def beginEntry (block : Token) (s : Layout) : Option Layout :=
  if s.inFlow then some s
  else if s.keyAllowed then some (s.openBlock s.column s.count block)
  else none

/-- The dash of an item. -/
def readDash (s : Layout) : Option Layout := do
  let s ← (← s.beginEntry .blockSequence).dropCandidate
  return ({ s with keyAllowed := true }.skip 1).push .dash

/-- The question mark of a key. -/
def readKey (s : Layout) : Option Layout := do
  let s ← (← s.beginEntry .blockMapping).dropCandidate
  return ({ s with keyAllowed := !s.inFlow }.skip 1).push .key

/-- The colon of a value.  It makes the candidate a key, at whose column a mapping may open. -/
def readValue (s : Layout) : Option Layout := do
  let s ← match s.candidate with
    | some c =>
      let s := insertAt c.place .key s
      let s := s.openBlock c.position.column c.place .blockMapping
      some { s with candidate := none, keyAllowed := false }
    | none => do
      let s ← s.beginEntry .blockMapping
      some { s with keyAllowed := !s.inFlow }
  return (s.skip 1).push .value

/-! ## Words -/

/-- A word that may be, or begin, a key. -/
def readWord (read : Cursor → Option (Lexeme Token)) (s : Layout) : Option Layout := do
  let s ← s.markCandidate
  let (t, there) ← read s.cursor
  return push t { s with keyAllowed := false, cursor := there }

/-- An alias or an anchor. -/
def readNamed (token : String → Token) : Layout → Option Layout :=
  readWord fun here => (readName (here.skip 1)).map fun (name, there) => (token name, there)

/-- A quoted scalar. -/
def readQuoted (single : Bool) : Layout → Option Layout :=
  readWord fun here => (quotedScalar single here).map fun (text, there) => (.scalar text false, there)

/-- A plain scalar.  A key may begin behind it if a line break does. -/
def readPlain (s : Layout) : Option Layout := do
  let s ← s.markCandidate
  let ((text, broken), there) ← plainScalar s.inFlow s.margin s.cursor
  return push (.scalar text true) { s with keyAllowed := broken, cursor := there }

/-- A literal or folded scalar. -/
def readBlockScalar (folded : Bool) (s : Layout) : Option Layout := do
  let s ← s.dropCandidate
  let (text, there) ← blockScalar folded s.margin s.cursor
  return push (.scalar text false) { s with keyAllowed := true, cursor := there }

/-! ## The whole text -/

/-- Pass over blanks, comments and line breaks.  A tab may not indent a token that could begin a
block; behind a line break a block may begin. -/
def skipBlanks : (fuel : List Char) → Layout → Layout
  | [], s => s
  | _ :: fuel, s =>
    let tabs := s.inFlow || !s.keyAllowed
    let here := s.cursor.skipWhile fun c => c = ' ' || (tabs && c = '\t')
    let here := if here.ahead.head? == some '#' then here.skipWhile (fun c => !isBreak c) else here
    if here.ahead.head?.any isBreak then
      skipBlanks fuel { s with cursor := here.skip 1, keyAllowed := s.keyAllowed || !s.inFlow }
    else { s with cursor := here }

/-- The token that begins with the character ahead. -/
def readToken (c : Char) (rest : List Char) (s : Layout) : Option Layout :=
  if s.column = 0 && c = '%' then s.readDirective
  else if s.cursor.atMarker '-' then s.readMarker .documentStart
  else if s.cursor.atMarker '.' then s.readMarker .documentEnd
  else
    match c with
    | '[' => s.openFlow .flowSequence
    | '\x7b' => s.openFlow .flowMapping
    | ']' => s.closeFlow .flowSequenceEnd
    | '\x7d' => s.closeFlow .flowMappingEnd
    | ',' => s.readComma
    | '*' => s.readNamed .alias
    | '&' => s.readNamed .anchor
    | '!' => s.readWord (readTag s.inFlow)
    | '\x27' => s.readQuoted true
    | '"' => s.readQuoted false
    | _ =>
      if c = '-' && wordEnds rest then s.readDash
      else if c = '?' && (s.inFlow || wordEnds rest) then s.readKey
      else if c = ':' && (s.inFlow || wordEnds rest) then s.readValue
      else if c = '|' && !s.inFlow then s.readBlockScalar false
      else if c = '>' && !s.inFlow then s.readBlockScalar true
      else if c = '-' || c = '?' || c = ':' || !(isGap c || indicators.contains c) then s.readPlain
      else none

/-- Cut the rest of the text. -/
def readAll : (fuel : List Char) → Layout → Option (List Token)
  | [], _ => none
  | _ :: fuel, s => do
    let s := s.skipBlanks s.cursor.fuel
    let s ← s.expireCandidates
    let s := s.closeBlocks (s.column + 1)
    match s.cursor.ahead with
    | [] =>
      let s ← (s.closeBlocks 0).dropCandidate
      return s.tokens.reverse
    | c :: rest => readAll fuel (← s.readToken c rest)

end Layout

/-- The tokens of a text. -/
def Token.ofText? (text : String) : Option (List Token) :=
  if text.toList.all isAllowed then
    let cursor := Cursor.ofChars (unifyBreaks text.toList)
    Layout.readAll cursor.fuel (Layout.start cursor)
  else none

end Rollout.Yaml
