/-!
# Characters of a YAML text

Which characters a text may hold, and the classes that its grammar speaks of.  `unifyBreaks` writes
every line break that means no more than a line feed as one; the two Unicode separators remain,
because a scalar keeps them.
-/

namespace Rollout.Yaml

/-- The characters that a text may hold. -/
def isAllowed (c : Char) : Bool :=
  c = '\t' || c = '\n' || c = '\r' || c = '\u0085' ||
    (0x20 ≤ c.toNat && c.toNat ≤ 0x7e) || (0xa0 ≤ c.toNat && c.toNat ≤ 0xfffd) || 0x10000 ≤ c.toNat

/-- Write carriage returns, alone or before a line feed, and next-line characters as line feeds. -/
def unifyBreaks : List Char → List Char
  | [] => []
  | '\r' :: '\n' :: rest => '\n' :: unifyBreaks rest
  | c :: rest => (if c = '\r' || c = '\u0085' then '\n' else c) :: unifyBreaks rest

/-- Line breaks. -/
def isBreak (c : Char) : Bool := c = '\n' || c = '\u2028' || c = '\u2029'

/-- Blanks inside a line. -/
def isBlank (c : Char) : Bool := c = ' ' || c = '\t'

/-- Blanks and line breaks. -/
def isGap (c : Char) : Bool := isBlank c || isBreak c

/-- The characters of names and handles. -/
def isNameChar (c : Char) : Bool := c.isAlphanum || c = '_' || c = '-'

/-- The brackets and the comma of flow collections. -/
def isFlowIndicator (c : Char) : Bool :=
  c = ',' || c = '[' || c = ']' || c = '\x7b' || c = '\x7d'

/-- The characters that begin something other than a plain scalar. -/
def indicators : List Char := "-?:,[]\x7b\x7d#&*!|>'\"%@\x60".toList

/-- Whether the line, or at least the word, ends here. -/
def wordEnds (ahead : List Char) : Bool :=
  match ahead with
  | [] => true
  | c :: _ => isGap c

/-- Whether the line ends here. -/
def lineEnds (ahead : List Char) : Bool :=
  match ahead with
  | [] => true
  | c :: _ => isBreak c

end Rollout.Yaml
