import Rollout.Text.Unprintable

/-!
# Texts quoted for a reader

`Text.debug` quotes a text so that every character can be seen: quotation mark, backslash and the
common controls get short escapes, every other character without a print form its number in braces.
-/

namespace Rollout.Text

/-- One character inside quotation marks. -/
def debugChar (c : Char) : List Char :=
  if c = '\x00' then ['\\', '0']
  else if c = '\t' then ['\\', 't']
  else if c = '\n' then ['\\', 'n']
  else if c = '\r' then ['\\', 'r']
  else if c = '"' then ['\\', '"']
  else if c = '\\' then ['\\', '\\']
  else if c.toNat < 0x20 || c.toNat = 0x7f || (0x80 ≤ c.toNat && isUnprintable c) then
    '\\' :: 'u' :: '{' :: (Nat.toDigits 16 c.toNat ++ ['}'])
  else [c]

/-- A text in quotation marks. -/
def debug (s : String) : String := String.ofList ('"' :: (s.toList.flatMap debugChar ++ ['"']))

end Rollout.Text
