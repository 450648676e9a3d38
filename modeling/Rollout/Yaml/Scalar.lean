import Rollout.Text.Digits
import Rollout.Yaml.Cursor

/-!
# Scalars of a YAML text

Readers of the five styles: plain, single-quoted, double-quoted, literal and folded.  Each takes the
cursor at the scalar and gives its text and the cursor behind it, or nothing where the text breaks
the rules of the style.

The *margin* of a scalar is the least column at which its further lines may stand, one more than the
column of the block collection around it, and zero where there is none.
-/

namespace Rollout.Yaml

/-! ## Gaps between words -/

/-- The text that a gap of blanks and breaks stands for: blanks inside a line stand for themselves, a
single line feed for a space, and of several breaks the first, if it is a line feed, is dropped. -/
def foldGap (gap : List Char) : List Char :=
  match gap.filter isBreak with
  | [] => gap
  | ['\n'] => [' ']
  | '\n' :: more => more
  | separators => separators

/-- Whether a gap indents one of its further lines with a tab before the margin. -/
def tabBeforeMargin (margin : Nat) (gap : List Char) : Bool :=
  go none gap
where
  /-- The column in the line is known from the first break on. -/
  go (column? : Option Nat) : List Char → Bool
    | [] => false
    | c :: rest =>
      if isBreak c then go (some 0) rest
      else
        match column? with
        | none => go none rest
        | some column => (c = '\t' && column < margin) || go (some (column + 1)) rest

/-! ## Plain scalars -/

/-- A plain scalar from here on, `gap` being the blanks just passed.  Beside the text it is told
whether a line break follows the text. -/
def plainRest (inFlow : Bool) (margin : Nat) :
    (fuel : List Char) → List Char → Cursor → Option (Lexeme (List Char × Bool))
  | [], _, _ => none
  | _ :: fuel, gap, here =>
    let stop := some (([], gap.any isBreak), here)
    if !gap.isEmpty && (here.atDocumentMarker || here.ahead.head? == some '#' ||
        (!inFlow && here.column < margin)) then stop
    else
      match here.ahead with
      | [] => stop
      | c :: rest =>
        if isGap c then
          let (gap, there) := here.span isGap
          if tabBeforeMargin margin gap then none else plainRest inFlow margin fuel gap there
        else if inFlow && c = ':' && rest.head?.any (fun d => d = '?' || isFlowIndicator d) then none
        else if (c = ':' && wordEnds rest) || (inFlow && isFlowIndicator c) then stop
        else do
          let ((text, broken), there) ← plainRest inFlow margin fuel [] (here.skip 1)
          return ((foldGap gap ++ c :: text, broken), there)

/-- A plain scalar, and whether a line break follows its text. -/
def plainScalar (inFlow : Bool) (margin : Nat) (here : Cursor) : Option (Lexeme (String × Bool)) := do
  let ((text, broken), there) ← plainRest inFlow margin here.fuel [] here
  return ((String.ofList text, broken), there)

/-! ## Quoted scalars -/

/-- A single-quoted scalar from here on; a quote inside is written twice. -/
def singleQuotedRest : (fuel : List Char) → Cursor → Option (Lexeme (List Char))
  | [], _ => none
  | _ :: fuel, here =>
    if here.atDocumentMarker then none
    else
      match here.ahead with
      | [] => none
      | '\x27' :: '\x27' :: _ => do
        let (text, there) ← singleQuotedRest fuel (here.skip 2)
        return ('\x27' :: text, there)
      | '\x27' :: _ => some ([], here.skip 1)
      | c :: _ =>
        if isGap c then do
          let (gap, there) := here.span isGap
          let (text, there) ← singleQuotedRest fuel there
          return (foldGap gap ++ text, there)
        else do
          let (text, there) ← singleQuotedRest fuel (here.skip 1)
          return (c :: text, there)

/-- The character that a one-letter escape stands for. -/
def shortEscape? (c : Char) : Option Char :=
  match c with
  | '0' => some '\x00'
  | 'a' => some '\x07'
  | 'b' => some '\x08'
  | 't' => some '\t'
  | '\t' => some '\t'
  | 'n' => some '\n'
  | 'v' => some '\x0b'
  | 'f' => some '\x0c'
  | 'r' => some '\r'
  | 'e' => some '\x1b'
  | ' ' => some ' '
  | '"' => some '"'
  | '/' => some '/'
  | '\\' => some '\\'
  | 'N' => some '\u0085'
  | '_' => some '\u00a0'
  | 'L' => some '\u2028'
  | 'P' => some '\u2029'
  | _ => none

/-- The number of hexadecimal digits behind the letter of an escape. -/
def escapeWidth? (c : Char) : Option Nat :=
  match c with
  | 'x' => some 2
  | 'u' => some 4
  | 'U' => some 8
  | _ => none

/-- The character with a code, if the code names one. -/
def charOfCode? (code : Nat) : Option Char :=
  if h : code.isValidChar then some (Char.ofNatAux code h) else none

/-- The character of an escape whose backslash is passed. -/
def readEscape (here : Cursor) : Option (Lexeme Char) :=
  match here.ahead with
  | [] => none
  | letter :: rest =>
    match shortEscape? letter with
    | some c => some (c, here.skip 1)
    | none => do
      let width ← escapeWidth? letter
      let digits := rest.take width
      if digits.length = width && digits.all (isDigitOf 16) then
        return (← charOfCode? (naturalIn 16 digits), here.skip (width + 1))
      none

/-- A double-quoted scalar from here on.  A backslash before a line break joins the lines. -/
def doubleQuotedRest : (fuel : List Char) → Cursor → Option (Lexeme (List Char))
  | [], _ => none
  | _ :: fuel, here =>
    if here.atDocumentMarker then none
    else
      match here.ahead with
      | [] => none
      | '"' :: _ => some ([], here.skip 1)
      | '\\' :: rest =>
        if rest.head?.any isBreak then do
          let (gap, there) := (here.skip 2).span isGap
          let (text, there) ← doubleQuotedRest fuel there
          return (gap.filter isBreak ++ text, there)
        else do
          let (c, there) ← readEscape (here.skip 1)
          let (text, there) ← doubleQuotedRest fuel there
          return (c :: text, there)
      | c :: _ =>
        if isGap c then do
          let (gap, there) := here.span isGap
          let (text, there) ← doubleQuotedRest fuel there
          return (foldGap gap ++ text, there)
        else do
          let (text, there) ← doubleQuotedRest fuel (here.skip 1)
          return (c :: text, there)

/-- A quoted scalar at its opening quotation mark. -/
def quotedScalar (single : Bool) (here : Cursor) : Option (Lexeme String) := do
  let inside := here.skip 1
  let (text, there) ← if single then singleQuotedRest inside.fuel inside
    else doubleQuotedRest inside.fuel inside
  return (String.ofList text, there)

/-! ## Literal and folded scalars -/

/-- What becomes of the line breaks at the end of a block scalar. -/
inductive Chomping where
  /-- All are dropped. -/
  | strip
  /-- The first is kept. -/
  | clip
  /-- All are kept. -/
  | keep
deriving DecidableEq

/-- The chomping that a sign writes. -/
def Chomping.ofChar? (c : Char) : Option Chomping :=
  if c = '+' then some .keep else if c = '-' then some .strip else none

/-- The sign and the digit at the head of a block scalar, in either order and both optional. -/
def blockIndicators (here : Cursor) : Option (Lexeme (Chomping × Option Nat)) :=
  let sign? := fun (at? : Option Char) => at?.bind Chomping.ofChar?
  let digit? := fun (at? : Option Char) => at?.filter Char.isDigit
  match sign? here.ahead.head? with
  | some chomping =>
    match digit? (here.skip 1).ahead.head? with
    | none => some ((chomping, none), here.skip 1)
    | some '0' => none
    | some d => some ((chomping, some (naturalOf [d])), here.skip 2)
  | none =>
    match digit? here.ahead.head? with
    | none => some ((.clip, none), here)
    | some '0' => none
    | some d =>
      match sign? (here.skip 1).ahead.head? with
      | none => some ((.clip, some (naturalOf [d])), here.skip 1)
      | some chomping => some ((chomping, some (naturalOf [d])), here.skip 2)

/-- Pass over blanks and a comment, behind which the line must end, and over its break. -/
def endOfLine (here : Cursor) : Option Cursor :=
  let here := here.skipWhile isBlank
  let here := if here.ahead.head? == some '#' then here.skipWhile (fun c => !isBreak c) else here
  if lineEnds here.ahead then some (here.skip 1) else none

/-- The empty lines from here on: their breaks, the widest column met, and the first other line, at
most at the indentation if that is known.  A tab may not stand in for the indentation. -/
def emptyLines (indentation? : Option Nat) :
    (fuel : List Char) → Cursor → Option (Lexeme (List Char × Nat))
  | [], _ => none
  | _ :: fuel, here =>
    let spaces := (here.ahead.takeWhile (· = ' ')).length
    let here := here.skip (match indentation? with
      | none => spaces
      | some indentation => min spaces (indentation - here.column))
    match here.ahead with
    | [] => some (([], here.column), here)
    | c :: _ =>
      if c = '\t' && indentation?.all (here.column < ·) then none
      else if isBreak c then do
        let ((breaks, widest), there) ← emptyLines indentation? fuel (here.skip 1)
        return ((c :: breaks, max here.column widest), there)
      else some (([], here.column), here)

/-- The lines of a block scalar from here on.  `lineBreak` ended the line before, `breaks` are those
of the empty lines since, and `indented` tells whether the line before began with a blank: a folded
scalar joins two lines unless one of them does. -/
def blockLines (folded : Bool) (chomping : Chomping) (indentation : Nat) :
    (fuel : List Char) → List Char → List Char → Bool → Cursor → Option (Lexeme (List Char))
  | [], _, _, _, _ => none
  | _ :: fuel, lineBreak, breaks, indented, here =>
    if here.column = indentation && !here.ahead.isEmpty then do
      let indentedHere := here.ahead.head?.any isBlank
      let joint :=
        if folded && lineBreak = ['\n'] && !indented && !indentedHere then
          if breaks.isEmpty then [' '] else breaks
        else lineBreak ++ breaks
      let (line, there) := here.span (fun c => !isBreak c)
      let there' := there.skip 1
      let ((breaks, _), next) ← emptyLines (some indentation) there'.fuel there'
      let (text, last) ←
        blockLines folded chomping indentation fuel (there.ahead.take 1) breaks indentedHere next
      return (joint ++ line ++ text, last)
    else
      let tail := match chomping with
        | .strip => []
        | .clip => lineBreak
        | .keep => lineBreak ++ breaks
      some (tail, here)

/-- A block scalar at its indicator.  Its indentation is given by the digit, counted from the block
around it, or else by its first line with text or a wider empty line before. -/
def blockScalar (folded : Bool) (margin : Nat) (here : Cursor) : Option (Lexeme String) := do
  let ((chomping, digit?), there) ← blockIndicators (here.skip 1)
  let there ← endOfLine there
  let given? := digit?.map (margin - 1 + ·)
  let ((breaks, widest), there) ← emptyLines given? there.fuel there
  let indentation := given?.getD (max widest (max margin 1))
  let (text, there) ← blockLines folded chomping indentation there.fuel [] breaks false there
  return (String.ofList text, there)

end Rollout.Yaml
