import Rollout.Result

/-!
# Faults of a JSON text

Each constructor is one way in which a text fails to be JSON.  Readers report the first fault in
reading order.
-/

namespace Rollout.Json

/-- Why a text is not JSON. -/
inductive SyntaxError where
  /-- The text ends where a value is needed, or inside a keyword or number. -/
  | endInValue
  | endInList
  | endInObject
  | endInString
  /-- A character stands where a value is needed and starts none. -/
  | expectedValue
  /-- A wrong character inside `true`, `false` or `null`. -/
  | brokenKeyword
  | invalidNumber
  | numberOutOfRange
  | expectedListSeparator
  | expectedObjectSeparator
  | expectedColon
  | keyNotString
  | trailingComma
  | trailingCharacters
  | controlCharacter
  | invalidEscape
  /-- A leading surrogate is not followed by another escape. -/
  | truncatedSurrogatePair
  /-- A surrogate without its partner. -/
  | loneSurrogate
  /-- More containers are nested than the limit allows. -/
  | tooDeep
deriving Repr, DecidableEq

/-- The wording of a fault. -/
def SyntaxError.message : SyntaxError → String
  | .endInValue => "EOF while parsing a value"
  | .endInList => "EOF while parsing a list"
  | .endInObject => "EOF while parsing an object"
  | .endInString => "EOF while parsing a string"
  | .expectedValue => "expected value"
  | .brokenKeyword => "expected ident"
  | .invalidNumber => "invalid number"
  | .numberOutOfRange => "number out of range"
  | .expectedListSeparator => "expected \x60,\x60 or \x60]\x60"
  | .expectedObjectSeparator => "expected \x60,\x60 or \x60\x7d\x60"
  | .expectedColon => "expected \x60:\x60"
  | .keyNotString => "key must be a string"
  | .trailingComma => "trailing comma"
  | .trailingCharacters => "trailing characters"
  | .controlCharacter => "control character (\\u0000-\\u001F) found while parsing a string"
  | .invalidEscape => "invalid escape"
  | .truncatedSurrogatePair => "unexpected end of hex escape"
  | .loneSurrogate => "lone leading surrogate in hex escape"
  | .tooDeep => "recursion limit exceeded"

end Rollout.Json
