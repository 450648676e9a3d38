import Rollout.Decimal.Nearest
import Rollout.Json.Basic

/-!
# The values of YAML scalars

A plain scalar without a tag is null, a boolean, an integer or a double where its text writes one,
tried in this order, and else a string.  The tags of these four kinds force the kind, whatever the
style; every other scalar is its text.  A double that JSON cannot write is null there, and an integer
beyond 64 bits that fits in 128 has no value.
-/

namespace Rollout.Yaml

/-! ## Spellings -/

/-- Whether a text spells null. -/
def isNull (text : String) : Bool := ["~", "null", "Null", "NULL"].contains text

/-- The boolean that a text spells. -/
def bool? (text : String) : Option Bool :=
  if ["true", "True", "TRUE"].contains text then some true
  else if ["false", "False", "FALSE"].contains text then some false
  else none

/-- Whether digits have a leading zero, so that they write no number. -/
def hasLeadingZero (digits : List Char) : Bool :=
  1 < digits.length && digits.head? == some '0' && digits.all Char.isDigit

/-- The number that digits of a base write, of which there must be one. -/
def digits? (base : Nat) (digits : List Char) : Option Nat :=
  if digits.isEmpty || !digits.all (isDigitOf base) then none else some (naturalIn base digits)

/-- A natural number: decimal, or with a base marked by `0x`, `0o` or `0b`. -/
def magnitude? : List Char → Option Nat
  | '0' :: 'x' :: digits => digits? 16 digits
  | '0' :: 'o' :: digits => digits? 8 digits
  | '0' :: 'b' :: digits => digits? 2 digits
  | digits => if hasLeadingZero digits then none else digits? 10 digits

/-- An integer: an optional sign and a natural number. -/
def integer? (text : List Char) : Option Int :=
  let (negative, rest) := spanSign text
  (magnitude? rest).map fun n => if negative then -(n : Int) else n

/-- A finite double in decimal notation. -/
def finite? (text : List Char) : Option Float := (float? text).filter Float.isFinite

/-- Whether a text spells an infinity or what is not a number. -/
def isSpecialFloat (text : List Char) : Bool :=
  [".nan", ".NaN", ".NAN"].contains (String.ofList text) ||
    [".inf", ".Inf", ".INF"].contains (String.ofList (spanSign text).2)

/-- The value of a double, in either notation. -/
def double? (text : List Char) : Option Json :=
  if isSpecialFloat text then some .null
  else (finite? text).map fun x => .number (.double x)

/-! ## Values -/

/-- The value of an integer.  Integers of 128 bits are told from larger ones, which are doubles. -/
inductive IntegerValue where
  | number (value : Number)
  | unsupported
  | beyond

/-- The value that an integer has. -/
def integerValue (n : Int) : IntegerValue :=
  match Number.ofInt? n with
  | some number => .number number
  | none => if -2 ^ 127 ≤ n ∧ n < 2 ^ 128 then .unsupported else .beyond

/-- The value of a plain scalar without a tag. -/
def plainValue? (text : String) : Option Json :=
  if text.isEmpty || isNull text then some .null
  else
    match bool? text with
    | some b => some (.bool b)
    | none =>
      let chars := text.toList
      let otherwise :=
        if hasLeadingZero (spanSign chars).2 then some (.string text)
        else some ((double? chars).getD (.string text))
      match (integer? chars).map integerValue with
      | some (.number n) => some (.number n)
      | some .unsupported => none
      | some .beyond => otherwise
      | none => otherwise

/-- The value of a scalar with a tag that forces its kind. -/
def taggedValue? (tag : String) (text : String) : Option Json :=
  match tag with
  | "tag:yaml.org,2002:bool" => (bool? text).map .bool
  | "tag:yaml.org,2002:int" =>
    match (integer? text.toList).map integerValue with
    | some (.number n) => some (.number n)
    | _ => none
  | "tag:yaml.org,2002:float" => double? text.toList
  | "tag:yaml.org,2002:null" => if isNull text then some .null else none
  | _ => some (.string text)

/-- Whether a tag is local to its document.  Values of such tags are not known. -/
def isLocalTag (tag : String) : Bool := tag.startsWith "!"

/-- The value of a scalar. -/
def scalarValue? (tag : Option String) (text : String) (isPlain : Bool) : Option Json :=
  match tag with
  | some tag => if isLocalTag tag then none else taggedValue? tag text
  | none => if isPlain then plainValue? text else some (.string text)

end Rollout.Yaml
