import Rollout.Text.Digits
import Rollout.Yaml.Cursor
import Rollout.Yaml.Token

/-!
# Names, tags and directives of a YAML text

Readers of the words that begin with `&`, `*`, `!` and `%`.
-/

namespace Rollout.Yaml

/-! ## Anchors and aliases -/

/-- The name of an anchor or alias, behind its indicator. -/
def readName (here : Cursor) : Option (Lexeme String) :=
  let (name, there) := here.span isNameChar
  let ends := wordEnds there.ahead ||
    there.ahead.head?.any (fun c => "?:,]\x7d%@\x60".toList.contains c)
  if name.isEmpty || !ends then none else some (String.ofList name, there)

/-! ## Tags -/

/-- The characters of a tag; inside angle brackets also the comma and square brackets. -/
def isTagChar (verbatim : Bool) (c : Char) : Bool :=
  isNameChar c || ";/?:@&=+$.%!~*'()".toList.contains c ||
    (verbatim && (c = ',' || c = '[' || c = ']'))

/-- The number of bytes in a character that begins with the given byte, and that byte's share of the
code. -/
def leadingByte? (byte : Nat) : Option (Nat × Nat) :=
  if byte < 0x80 then some (1, byte)
  else if 0xc0 ≤ byte ∧ byte < 0xe0 then some (2, byte - 0xc0)
  else if 0xe0 ≤ byte ∧ byte < 0xf0 then some (3, byte - 0xe0)
  else if 0xf0 ≤ byte ∧ byte < 0xf8 then some (4, byte - 0xf0)
  else none

/-- A byte written as a percent sign and two hexadecimal digits. -/
def percentByte : List Char → Option (Nat × List Char)
  | '%' :: a :: b :: rest => do
    let high ← digitValue? 16 a
    let low ← digitValue? 16 b
    return (16 * high + low, rest)
  | _ => none

/-- The given number of continuation bytes, added to the code. -/
def continuationBytes : Nat → Nat → List Char → Option (Nat × List Char)
  | 0, code, cs => some (code, cs)
  | n + 1, code, cs => do
    let (byte, rest) ← percentByte cs
    if 0x80 ≤ byte ∧ byte < 0xc0 then continuationBytes n (64 * code + (byte - 0x80)) rest
    else none

/-- The text of a tag, percent escapes being bytes of characters. -/
def tagText : Nat → List Char → Option (List Char)
  | 0, _ => none
  | _ + 1, [] => some []
  | fuel + 1, c :: rest =>
    if c = '%' then do
      let (byte, rest) ← percentByte (c :: rest)
      let (width, code) ← leadingByte? byte
      let (code, rest) ← continuationBytes (width - 1) code rest
      return (if code.isValidChar then Char.ofNat code else '\ufffd') :: (← tagText fuel rest)
    else return c :: (← tagText fuel rest)

/-- The characters of a tag from here on, as the text that they write. -/
def readTagText (verbatim : Bool) (here : Cursor) : Option (Lexeme (List Char)) := do
  let (run, there) := here.span (isTagChar verbatim)
  return (← tagText (run.length + 1) run, there)

/-- A handle: an exclamation mark, and a name that another one closes. -/
def spanHandle (here : Cursor) : Lexeme (List Char) :=
  let (name, there) := (here.skip 1).span isNameChar
  match there.ahead with
  | '!' :: _ => ('!' :: name ++ ['!'], there.skip 1)
  | _ => ('!' :: name, there)

/-- A tag at its exclamation mark, as handle and suffix.  A tag that is written in full has the
handle `""`, and so has the mark that stands alone. -/
def readTag (inFlow : Bool) (here : Cursor) : Option (Lexeme Token) := do
  let (tag, there) ← match here.ahead with
    | '!' :: '<' :: _ => do
      let (suffix, there) ← readTagText true (here.skip 2)
      if suffix.isEmpty || there.ahead.head? != some '>' then none
      some (Token.tag "" (String.ofList suffix), there.skip 1)
    | _ => do
      let (handle, there) := spanHandle here
      if 1 < handle.length && handle.getLast? == some '!' then
        let (suffix, there) ← readTagText false there
        if suffix.isEmpty then none
        some (Token.tag (String.ofList handle) (String.ofList suffix), there)
      else
        let (suffix, there) ← readTagText false there
        let suffix := handle.drop 1 ++ suffix
        some (if suffix.isEmpty then Token.tag "" "!" else Token.tag "!" (String.ofList suffix), there)
  if wordEnds there.ahead || (inFlow && there.ahead.head? == some ',') then return (tag, there)
  none

/-! ## Directives -/

/-- A number of a version: one to nine digits. -/
def readVersionNumber (here : Cursor) : Option (Lexeme Nat) :=
  let (digits, there) := here.span Char.isDigit
  if digits.isEmpty || 9 < digits.length then none else some (naturalOf digits, there)

/-- A directive at its percent sign, without the end of its line. -/
def readDirective (here : Cursor) : Option (Lexeme Token) := do
  let (name, there) := (here.skip 1).span isNameChar
  if !wordEnds there.ahead then none
  let there := there.skipWhile isBlank
  if name = "YAML".toList then
    let (major, there) ← readVersionNumber there
    if there.ahead.head? != some '.' then none
    let (minor, there) ← readVersionNumber (there.skip 1)
    return (.version major minor, there)
  else if name = "TAG".toList then
    if there.ahead.head? != some '!' then none
    let (handle, there) := spanHandle there
    if handle != ['!'] && handle.getLast? != some '!' then none
    if !there.ahead.head?.any isBlank then none
    let (meaning, there) ← readTagText true (there.skipWhile isBlank)
    if meaning.isEmpty || !wordEnds there.ahead then none
    return (.tagHandle (String.ofList handle) (String.ofList meaning), there)
  else none

end Rollout.Yaml
