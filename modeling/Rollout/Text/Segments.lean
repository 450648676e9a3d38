/-!
# Segments

The parts of a text between separators.  There is always one more than there are separators, and
parts may be empty.  A text may also be cut in two at its last separator, if it has one.
-/

namespace Rollout

/-- The segments between the separators. -/
def splitAt (separator : Char) : List Char → List (List Char)
  | [] => [[]]
  | c :: rest =>
    if c = separator then [] :: splitAt separator rest
    else
      match splitAt separator rest with
      | first :: more => (c :: first) :: more
      | [] => [[c]]

/-- The segments of a text. -/
def segments (separator : Char) (text : String) : List String :=
  (splitAt separator text.toList).map String.ofList

example : segments '/' "./a//b" = [".", "a", "", "b"] := by decide +kernel

/-- What stands before and behind the last separator. -/
def cutLast? (separator : Char) : List Char → Option (List Char × List Char)
  | [] => none
  | c :: rest =>
    match cutLast? separator rest with
    | some (before, behind) => some (c :: before, behind)
    | none => if c = separator then some ([], rest) else none

/-- A text in two parts, cut at the last separator. -/
def splitLast? (separator : Char) (text : String) : Option (String × String) :=
  (cutLast? separator text.toList).map fun parts =>
    (String.ofList parts.1, String.ofList parts.2)

end Rollout
