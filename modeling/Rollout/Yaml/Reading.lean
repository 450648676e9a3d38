import Rollout.Yaml.Layout
import Rollout.Yaml.Node
import Rollout.Yaml.Resolution

/-!
# Reading YAML as JSON values

`Yaml.ofText?` gives the value of the one document in a text.  A mapping is an object whose keys
are the texts of its scalar keys.

An alias stands for the node of its anchor.  Anchors are numbered by the count of different names
met before, an alias takes the number that its name has where it stands, and the number means the
last node that bears it.  `nestingLimit` bounds how deep containers nest, through aliases too, so
that a node within itself has no value; and a document may follow its aliases at most a hundred
times as often as it is long.
-/

namespace Rollout.Yaml

/-! ## Numbered anchors -/

namespace Node

/-- The numbers of the anchor names met so far. -/
abbrev Names := List (String × Nat)

/-- Give the anchor of a node its number. -/
def numberProperties (p : Properties String) (names : Names) : Properties Nat × Names :=
  match p.anchor with
  | none => ({ tag := p.tag }, names)
  | some name =>
    ({ anchor := some names.length, tag := p.tag }, Entries.insert name names.length names)

mutual

/-- Replace the names of anchors by numbers; an alias needs an anchor before it. -/
def number : Node String → Names → Option (Node Nat × Names)
  | .alias name, names => do return (.alias (← names.lookup name), names)
  | .scalar p text isPlain, names =>
    let (p, names) := numberProperties p names
    some (.scalar p text isPlain, names)
  | .sequence p items, names => do
    let (p, names) := numberProperties p names
    let (items, names) ← numberItems items names
    return (.sequence p items, names)
  | .mapping p entries, names => do
    let (p, names) := numberProperties p names
    let (entries, names) ← numberEntries entries names
    return (.mapping p entries, names)

/-- Number the anchors in items. -/
def numberItems : List (Node String) → Names → Option (List (Node Nat) × Names)
  | [], names => some ([], names)
  | item :: rest, names => do
    let (item, names) ← number item names
    let (items, names) ← numberItems rest names
    return (item :: items, names)

/-- Number the anchors in entries. -/
def numberEntries :
    List (Node String × Node String) → Names → Option (List (Node Nat × Node Nat) × Names)
  | [], names => some ([], names)
  | (key, value) :: rest, names => do
    let (key, names) ← number key names
    let (value, names) ← number value names
    let (entries, names) ← numberEntries rest names
    return ((key, value) :: entries, names)

end

variable {α : Type}

/-! ## Measures of a document -/

mutual

/-- The length of a document: one for each scalar and alias, two for each container. -/
def size : Node α → Nat
  | .alias _ => 1
  | .scalar _ _ _ => 1
  | .sequence _ items => 2 + sizeItems items
  | .mapping _ entries => 2 + sizeEntries entries

/-- The length of items. -/
def sizeItems : List (Node α) → Nat
  | [] => 0
  | item :: rest => item.size + sizeItems rest

/-- The length of entries. -/
def sizeEntries : List (Node α × Node α) → Nat
  | [] => 0
  | (key, value) :: rest => key.size + value.size + sizeEntries rest

end

mutual

/-- The nodes that bear an anchor, in the order of the document, after those already given; the last
one comes first. -/
def anchored (found : List (α × Node α)) : Node α → List (α × Node α)
  | .alias _ => found
  | .scalar p text isPlain => bear p (.scalar p text isPlain) found
  | .sequence p items => anchoredItems (bear p (.sequence p items) found) items
  | .mapping p entries => anchoredEntries (bear p (.mapping p entries) found) entries

/-- The anchored nodes in items. -/
def anchoredItems (found : List (α × Node α)) : List (Node α) → List (α × Node α)
  | [] => found
  | item :: rest => anchoredItems (anchored found item) rest

/-- The anchored nodes in entries. -/
def anchoredEntries (found : List (α × Node α)) : List (Node α × Node α) → List (α × Node α)
  | [] => found
  | (key, value) :: rest => anchoredEntries (anchored (anchored found key) value) rest

/-- Add a node if it bears an anchor. -/
def bear (p : Properties α) (node : Node α) (found : List (α × Node α)) : List (α × Node α) :=
  match p.anchor with
  | none => found
  | some a => (a, node) :: found

end

/-! ## Values -/

/-- How many containers may be nested. -/
def nestingLimit : Nat := 128

/-- How often an alias may be followed in a document, for each unit of its length. -/
def aliasFactor : Nat := 100

/-- A computation that follows aliases, of which only so many are left. -/
abbrev Following := StateT Nat Option

/-- The node itself, or that of an alias. -/
def follow (bearers : List (Nat × Node Nat)) : Node Nat → Following (Node Nat)
  | .alias a => do
    match ← get with
    | 0 => failure
    | left + 1 =>
      set left
      bearers.lookup a
  | node => pure node

/-- The text of a key. -/
def keyText (bearers : List (Nat × Node Nat)) (key : Node Nat) : Following String := do
  match ← follow bearers key with
  | .scalar _ text _ => return text
  | _ => failure

/-- Containers of local tags have no value. -/
def checkTag (p : Properties Nat) : Following Unit :=
  if p.tag.any isLocalTag then failure else pure ()

/-- The value of a node within so many containers more. -/
def value (bearers : List (Nat × Node Nat)) (room : Nat) (node : Node Nat) : Following Json := do
  match ← follow bearers node with
  | .scalar p text isPlain => scalarValue? p.tag text isPlain
  | .sequence p items =>
    match room with
    | 0 => failure
    | room + 1 =>
      checkTag p
      return .array (← items.mapM (value bearers room))
  | .mapping p entries =>
    match room with
    | 0 => failure
    | room + 1 =>
      checkTag p
      let members ← entries.mapM fun (k, v) => do
        let key ← keyText bearers k
        return (key, ← value bearers room v)
      return .object (Entries.ofList members)
  | .alias _ => failure

/-- The value of a document. -/
def toJson? (document : Node String) : Option Json := do
  let (node, _) ← number document []
  let (j, _) ← (value (anchored [] node) nestingLimit node).run (aliasFactor * node.size)
  return j

end Node

/-- The value that a YAML text writes. -/
def ofText? (text : String) : Option Json := do
  (← Node.ofTokens? (← Token.ofText? text)).toJson?

example : ofText? "- a: &x yes\n  b: [*x, ~]\n"
    = some (.array [.object [("a", .string "yes"), ("b", .array [.string "yes", .null])]]) := by
  decide +kernel
example : ofText? "a: >-\n  one\n  two\n" = some (.object [("a", .string "one two")]) := by
  decide +kernel
example : ofText? "&x [*x]" = none := by decide +kernel

end Rollout.Yaml
