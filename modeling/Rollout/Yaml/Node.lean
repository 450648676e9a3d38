import Rollout.Yaml.Token

/-!
# The nodes of a YAML document

A document is one node: a scalar, a sequence, a mapping, or an alias of a node that an anchor names.
`Node.ofTokens?` reads it from the tokens of a text that holds one document.  Entries may leave out
the key or the value, and items the node; the empty plain scalar stands for what is left out.
-/

namespace Rollout.Yaml

/-- What may stand before the content of a node: the name of an anchor, and a tag. -/
structure Properties (α : Type) where
  anchor : Option α := none
  tag : Option String := none
deriving DecidableEq

/-- A node whose anchors and aliases are named in `α`. -/
inductive Node (α : Type) where
  | alias (name : α)
  | scalar (properties : Properties α) (text : String) (isPlain : Bool)
  | sequence (properties : Properties α) (items : List (Node α))
  | mapping (properties : Properties α) (entries : List (Node α × Node α))

namespace Node

variable {α : Type}

/-- What stands for a node that is left out. -/
def absent : Node α := .scalar {} "" true

/-! ## Properties -/

/-- The meanings of tag handles. -/
abbrev Handles := List (String × String)

/-- The meanings that hold without a directive. -/
def standardHandles : Handles := [("!", "!"), ("!!", "tag:yaml.org,2002:")]

/-- The tag that handle and suffix write, if the handle has a meaning. -/
def resolveTag (handles : Handles) (handle suffix : String) : Option String :=
  if handle.isEmpty then some suffix else (handles.lookup handle).map (· ++ suffix)

/-- An anchor and a tag, in either order and both optional. -/
def readProperties (handles : Handles) : List Token → Option (Properties String × List Token)
  | .anchor name :: .tag handle suffix :: rest => do
    return ({ anchor := some name, tag := some (← resolveTag handles handle suffix) }, rest)
  | .tag handle suffix :: .anchor name :: rest => do
    return ({ anchor := some name, tag := some (← resolveTag handles handle suffix) }, rest)
  | .anchor name :: rest => some ({ anchor := some name }, rest)
  | .tag handle suffix :: rest => do return ({ tag := some (← resolveTag handles handle suffix) }, rest)
  | rest => some ({}, rest)

/-! ## Content -/

/-- Where a node stands. -/
inductive Place where
  /-- As an item of a block, or as the document. -/
  | block
  /-- As key or value of a block mapping, where a sequence may stand at the mapping's own column. -/
  | entry
  /-- Inside a flow collection. -/
  | flow
deriving DecidableEq

/-- Whether the next token is one of the given ones. -/
def isNext (ends : List Token) : List Token → Bool
  | [] => false
  | t :: _ => ends.contains t

/-- The tokens behind the comma that separates two items, or all before the first item. -/
def behindComma (first : Bool) (tokens : List Token) : Option (List Token) :=
  if first then some tokens
  else
    match tokens with
    | .comma :: rest => some rest
    | _ => none

mutual

/-- The node at the head of the tokens. -/
def read (handles : Handles) : Nat → Place → List Token → Option (Node String × List Token)
  | 0, _, _ => none
  | _ + 1, _, .alias name :: rest => some (.alias name, rest)
  | fuel + 1, place, tokens => do
    let (properties, content) ← readProperties handles tokens
    let bare := if properties = {} then none else some (.scalar properties "" true, content)
    match content with
    | .scalar text isPlain :: rest =>
      return (.scalar { properties with tag := properties.tag.filter (· ≠ "!") } text isPlain, rest)
    | .flowSequence :: rest =>
      let (items, rest) ← readFlowItems handles fuel true rest
      return (.sequence properties items, rest)
    | .flowMapping :: rest =>
      let (entries, rest) ← readFlowEntries handles fuel true rest
      return (.mapping properties entries, rest)
    | .dash :: _ =>
      if place = .entry then
        let (items, rest) ← readAlignedItems handles fuel content
        return (.sequence properties items, rest)
      else bare
    | .blockSequence :: rest =>
      if place = .flow then bare
      else
        let (items, rest) ← readItems handles fuel rest
        return (.sequence properties items, rest)
    | .blockMapping :: rest =>
      if place = .flow then bare
      else
        let (entries, rest) ← readEntries handles fuel rest
        return (.mapping properties entries, rest)
    | _ => bare

/-- The items of a block sequence and its end. -/
def readItems (handles : Handles) : Nat → List Token → Option (List (Node String) × List Token)
  | 0, _ => none
  | _ + 1, .blockEnd :: rest => some ([], rest)
  | fuel + 1, .dash :: rest => do
    let (item, rest) ←
      if isNext [.dash, .blockEnd] rest then some (absent, rest)
      else read handles fuel .block rest
    let (items, rest) ← readItems handles fuel rest
    return (item :: items, rest)
  | _ + 1, _ => none

/-- The items of a sequence at the column of the mapping around it, which nothing closes. -/
def readAlignedItems (handles : Handles) :
    Nat → List Token → Option (List (Node String) × List Token)
  | 0, _ => none
  | fuel + 1, .dash :: rest => do
    let (item, rest) ←
      if isNext [.dash, .key, .value, .blockEnd] rest then some (absent, rest)
      else read handles fuel .block rest
    let (items, rest) ← readAlignedItems handles fuel rest
    return (item :: items, rest)
  | _ + 1, rest => some ([], rest)

/-- The entries of a block mapping and its end. -/
def readEntries (handles : Handles) :
    Nat → List Token → Option (List (Node String × Node String) × List Token)
  | 0, _ => none
  | _ + 1, .blockEnd :: rest => some ([], rest)
  | fuel + 1, .key :: rest => do
    let ends := [.key, .value, .blockEnd]
    let (key, rest) ←
      if isNext ends rest then some (absent, rest) else read handles fuel .entry rest
    let (value, rest) ← match rest with
      | .value :: rest =>
        if isNext ends rest then some (absent, rest) else read handles fuel .entry rest
      | _ => some (absent, rest)
    let (entries, rest) ← readEntries handles fuel rest
    return ((key, value) :: entries, rest)
  | _ + 1, _ => none

/-- The items of a flow sequence and its end.  An item with a key is a mapping of one entry; where
its key is left out, the token in its place is passed over. -/
def readFlowItems (handles : Handles) :
    Nat → Bool → List Token → Option (List (Node String) × List Token)
  | 0, _, _ => none
  | _ + 1, _, .flowSequenceEnd :: rest => some ([], rest)
  | fuel + 1, first, tokens => do
    match ← behindComma first tokens with
    | .flowSequenceEnd :: rest => return ([], rest)
    | .key :: rest =>
      let (key, rest) ←
        if isNext [.value, .comma, .flowSequenceEnd] rest then some (absent, rest.drop 1)
        else read handles fuel .flow rest
      let (value, rest) ← match rest with
        | .value :: rest =>
          if isNext [.comma, .flowSequenceEnd] rest then some (absent, rest)
          else read handles fuel .flow rest
        | _ => some (absent, rest)
      let (items, rest) ← readFlowItems handles fuel false rest
      return (.mapping {} [(key, value)] :: items, rest)
    | tokens =>
      let (item, rest) ← read handles fuel .flow tokens
      let (items, rest) ← readFlowItems handles fuel false rest
      return (item :: items, rest)

/-- The entries of a flow mapping and its end. -/
def readFlowEntries (handles : Handles) :
    Nat → Bool → List Token → Option (List (Node String × Node String) × List Token)
  | 0, _, _ => none
  | _ + 1, _, .flowMappingEnd :: rest => some ([], rest)
  | fuel + 1, first, tokens => do
    match ← behindComma first tokens with
    | .flowMappingEnd :: rest => return ([], rest)
    | .key :: rest =>
      let (key, rest) ←
        if isNext [.value, .comma, .flowMappingEnd] rest then some (absent, rest)
        else read handles fuel .flow rest
      let (value, rest) ← match rest with
        | .value :: rest =>
          if isNext [.comma, .flowMappingEnd] rest then some (absent, rest)
          else read handles fuel .flow rest
        | _ => some (absent, rest)
      let (entries, rest) ← readFlowEntries handles fuel false rest
      return ((key, value) :: entries, rest)
    | tokens =>
      let (key, rest) ← read handles fuel .flow tokens
      let (entries, rest) ← readFlowEntries handles fuel false rest
      return ((key, absent) :: entries, rest)

end

/-! ## Documents -/

/-- The meanings that directives give to handles, and the tokens behind the directives.  The version
is named at most once and is 1.1 or 1.2, and a handle is given a meaning at most once. -/
def readDirectives (versioned : Bool) (handles : Handles) : List Token → Option (Handles × List Token)
  | .version major minor :: rest =>
    if versioned || major ≠ 1 || (minor ≠ 1 && minor ≠ 2) then none
    else readDirectives true handles rest
  | .tagHandle handle meaning :: rest =>
    if (handles.lookup handle).isSome then none
    else readDirectives versioned ((handle, meaning) :: handles) rest
  | rest => some (handles, rest)

/-- Whether the document begins with a directive or with its marker. -/
def isMarked : List Token → Bool
  | .version _ _ :: _ => true
  | .tagHandle _ _ :: _ => true
  | .documentStart :: _ => true
  | _ => false

/-- The fuel that suffices for the given tokens. -/
def fuelFor (tokens : List Token) : Nat := 2 * tokens.length + 2

/-- The node of a document behind its marker; a document may be empty there. -/
def readMarked (handles : Handles) (tokens : List Token) : Option (Node String × List Token) :=
  if tokens.isEmpty || isNext [.documentEnd] tokens || isMarked tokens then some (absent, tokens)
  else read handles (fuelFor tokens) .block tokens

/-- The document that the tokens write; none when they are no document or more than one. -/
def ofTokens? (tokens : List Token) : Option (Node String) := do
  let (node, rest) ←
    if tokens.isEmpty then some (absent, [])
    else if isMarked tokens then do
      let (handles, rest) ← readDirectives false [] tokens
      match rest with
      | .documentStart :: rest => readMarked (handles ++ standardHandles) rest
      | _ => none
    else read standardHandles (fuelFor tokens) .block tokens
  if (rest.dropWhile (· = .documentEnd)).isEmpty then return node
  none

end Node

end Rollout.Yaml
