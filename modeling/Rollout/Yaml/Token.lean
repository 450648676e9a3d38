/-!
# Tokens of a YAML text

The words of the grammar.  Blocks, which a text writes by indentation alone, have an opening and a
closing token of their own, and so has the key that only a later colon reveals.
-/

namespace Rollout.Yaml

/-- A word of the grammar. -/
inductive Token where
  /-- The directive that names the version of the format. -/
  | version (major minor : Nat)
  /-- The directive that gives a tag handle its meaning. -/
  | tagHandle (handle meaning : String)
  | documentStart
  | documentEnd
  | blockSequence
  | blockMapping
  | blockEnd
  | flowSequence
  | flowSequenceEnd
  | flowMapping
  | flowMappingEnd
  /-- The dash before an item of a block sequence. -/
  | dash
  | comma
  /-- What follows is the key of an entry. -/
  | key
  /-- What follows is the value of an entry. -/
  | value
  | alias (name : String)
  | anchor (name : String)
  | tag (handle suffix : String)
  | scalar (text : String) (isPlain : Bool)
deriving DecidableEq

end Rollout.Yaml
