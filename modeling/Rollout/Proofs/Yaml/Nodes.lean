import Rollout.Proofs.Yaml.Script
import Rollout.Yaml.Reading

/-!
# The value of a JSON text in YAML

The tokens of a spelling are read as its node (`Node.read_tokens`), with as many steps as there are
tokens.  The node has neither anchors nor tags, so that its numbers and aliases play no part, and
its value is that of the document (`Node.value_node`): here it matters that the plain scalars are
resolved to the same null, booleans and numbers.  `ofText?_of_portable` joins the three stages.
-/

namespace Rollout

/-! ## The node of a spelling -/

namespace Json

open Yaml (Node)

variable {α : Type}

mutual

/-- The node that a spelling writes. -/
def Spelling.node : Spelling → Node α
  | .null => .scalar {} "null" true
  | .bool value => .scalar {} (if value then "true" else "false") true
  | .number numeral => .scalar {} (String.ofList numeral.chars) true
  | .string pieces => .scalar {} (piecesText pieces) false
  | .emptyArray _ => .sequence {} []
  | .array _ items => .sequence {} items.nodes
  | .emptyObject _ => .mapping {} []
  | .object _ members => .mapping {} members.nodes

/-- The nodes that items write. -/
def SpelledItems.nodes : SpelledItems → List (Node α)
  | .last item _ => [item.node]
  | .more item _ _ items => item.node :: items.nodes

/-- The nodes that members write. -/
def SpelledMembers.nodes : SpelledMembers → List (Node α × Node α)
  | .last key value _ => [(.scalar {} (piecesText key.pieces) false, value.node)]
  | .more key value _ _ members =>
    (.scalar {} (piecesText key.pieces) false, value.node) :: members.nodes

end

end Json

namespace Yaml

namespace Node

open Json (Spelling SpelledItems SpelledMembers SpelledKey piecesText)

/-- A token that begins a node without properties in a flow collection. -/
inductive Begins : Token → Prop
  | scalar (text : String) (isPlain : Bool) : Begins (.scalar text isPlain)
  | sequence : Begins .flowSequence
  | mapping : Begins .flowMapping

theorem exists_tokens_eq_cons (v : Spelling) : ∃ t more, v.tokens = t :: more ∧ Begins t := by
  cases v with
  | null | bool | number | string => exact ⟨_, _, rfl, .scalar _ _⟩
  | emptyArray | array => exact ⟨_, _, rfl, .sequence⟩
  | emptyObject | object => exact ⟨_, _, rfl, .mapping⟩

variable (handles : Handles)

/-- The comma in front of what is not the first. -/
def separator (first : Bool) : List Token := if first then [] else [.comma]

/-- An item is read, and then the further ones. -/
theorem readFlowItems_item (v : Spelling) (fuel : Nat) (first : Bool) (behind : List Token) :
    readFlowItems handles (fuel + 1) first (separator first ++ (v.tokens ++ behind)) =
      (read handles fuel .flow (v.tokens ++ behind) >>= fun p =>
        readFlowItems handles fuel false p.2 >>= fun q => some (p.1 :: q.1, q.2)) := by
  obtain ⟨t, more, htokens, ht⟩ := exists_tokens_eq_cons v
  rw [htokens]
  cases first <;> cases ht <;> rfl

/-- An entry is read, and then the further ones. -/
theorem readFlowEntries_entry (key : SpelledKey) (v : Spelling) (fuel : Nat) (first : Bool)
    (behind : List Token) :
    readFlowEntries handles (fuel + 2) first
        (separator first ++ (key.tokens ++ (v.tokens ++ behind))) =
      (read handles (fuel + 1) .flow (v.tokens ++ behind) >>= fun p =>
        readFlowEntries handles (fuel + 1) false p.2 >>= fun q =>
          some ((.scalar {} (piecesText key.pieces) false, p.1) :: q.1, q.2)) := by
  obtain ⟨t, more, htokens, ht⟩ := exists_tokens_eq_cons v
  rw [htokens]
  cases first <;> cases ht <;> rfl

theorem length_tokens_pos (v : Spelling) : 0 < v.tokens.length := by
  obtain ⟨t, more, htokens, -⟩ := exists_tokens_eq_cons v
  rw [htokens]
  exact Nat.succ_pos _

mutual

/-- The tokens of a spelling are read as its node, wherever it stands.  Each step of a reader takes
a token at least, so their number is fuel enough. -/
theorem read_tokens : ∀ (v : Spelling) (fuel : Nat) (place : Place) (rest : List Token),
    v.tokens.length ≤ fuel → read handles fuel place (v.tokens ++ rest) = some (v.node, rest)
  | v, 0, _, _, hfuel => absurd hfuel (Nat.not_le_of_gt (length_tokens_pos v))
  | .null, _ + 1, _, _, _ => rfl
  | .bool _, _ + 1, _, _, _ => rfl
  | .number _, _ + 1, _, _, _ => rfl
  | .string _, _ + 1, _, _, _ => rfl
  | .emptyArray _, fuel + 1, place, rest, hfuel => by
      cases fuel with
      | zero => exact absurd hfuel (by simp [Spelling.tokens])
      | succ fuel => rfl
  | .array before items, fuel + 1, place, rest, hfuel => by
      have hitems := readFlowItems_tokens items fuel true rest
        (Nat.le_of_succ_le_succ hfuel)
      show (readFlowItems handles fuel true (separator true ++ (items.tokens ++ rest)) >>= _) = _
      rw [hitems]
      rfl
  | .emptyObject _, fuel + 1, place, rest, hfuel => by
      cases fuel with
      | zero => exact absurd hfuel (by simp [Spelling.tokens])
      | succ fuel => rfl
  | .object before members, fuel + 1, place, rest, hfuel => by
      have hmembers := readFlowEntries_tokens members fuel true rest
        (Nat.le_of_succ_le_succ hfuel)
      show (readFlowEntries handles fuel true
        (separator true ++ (members.tokens ++ rest)) >>= _) = _
      rw [hmembers]
      rfl

theorem readFlowItems_tokens : ∀ (items : SpelledItems) (fuel : Nat) (first : Bool)
    (rest : List Token), items.tokens.length ≤ fuel →
      readFlowItems handles fuel first (separator first ++ (items.tokens ++ rest)) =
        some (items.nodes, rest)
  | items, 0, _, _, hfuel => by
      cases items <;> simp [SpelledItems.tokens] at hfuel
  | .last item after, fuel + 1, first, rest, hfuel => by
      have hpos := length_tokens_pos item
      simp only [SpelledItems.tokens, List.length_append, List.length_singleton] at hfuel
      rw [SpelledItems.tokens, List.append_assoc, readFlowItems_item,
        read_tokens item fuel .flow _ (by omega)]
      -- the closing bracket takes the last step
      cases fuel with
      | zero => omega
      | succ fuel => rfl
  | .more item after before items, fuel + 1, first, rest, hfuel => by
      have hpos := length_tokens_pos item
      simp only [SpelledItems.tokens, List.length_append, List.length_cons] at hfuel
      have hitems := readFlowItems_tokens items fuel false rest (by omega)
      rw [SpelledItems.tokens, List.append_assoc, readFlowItems_item,
        read_tokens item fuel .flow _ (by omega)]
      show (readFlowItems handles fuel false (separator false ++ (items.tokens ++ rest)) >>= _) = _
      rw [hitems]
      rfl

theorem readFlowEntries_tokens : ∀ (members : SpelledMembers) (fuel : Nat) (first : Bool)
    (rest : List Token), members.tokens.length ≤ fuel →
      readFlowEntries handles fuel first (separator first ++ (members.tokens ++ rest)) =
        some (members.nodes, rest)
  | .last key value after, fuel, first, rest, hfuel => by
      simp only [SpelledMembers.tokens, SpelledKey.tokens, List.length_append,
        List.length_cons] at hfuel
      obtain ⟨fuel, rfl⟩ : ∃ n, fuel = n + 2 := ⟨fuel - 2, by omega⟩
      rw [SpelledMembers.tokens, List.append_assoc, List.append_assoc, readFlowEntries_entry,
        read_tokens value (fuel + 1) .flow _ (by omega)]
      rfl
  | .more key value after before members, fuel, first, rest, hfuel => by
      simp only [SpelledMembers.tokens, SpelledKey.tokens, List.length_append,
        List.length_cons] at hfuel
      obtain ⟨fuel, rfl⟩ : ∃ n, fuel = n + 2 := ⟨fuel - 2, by omega⟩
      have hmembers := readFlowEntries_tokens members (fuel + 1) false rest (by omega)
      rw [SpelledMembers.tokens, List.append_assoc, List.append_assoc, readFlowEntries_entry,
        read_tokens value (fuel + 1) .flow _ (by omega)]
      show (readFlowEntries handles (fuel + 1) false
        (separator false ++ (members.tokens ++ rest)) >>= _) = _
      rw [hmembers]
      rfl

end

/-- A document of nothing but a container's tokens. -/
theorem ofTokens?_tokens (v : Spelling) : ofTokens? v.tokens = some v.node := by
  have hread := read_tokens standardHandles v (fuelFor v.tokens) .block [] (by rw [fuelFor]; omega)
  obtain ⟨t, more, htokens, ht⟩ := exists_tokens_eq_cons v
  rw [List.append_nil] at hread
  have hmarked : v.tokens.isEmpty = false ∧ isMarked v.tokens = false := by
    rw [htokens]
    cases ht <;> exact ⟨rfl, rfl⟩
  rw [ofTokens?, hmarked.1, hmarked.2]
  show (read standardHandles (fuelFor v.tokens) .block v.tokens >>= _) = _
  rw [hread]
  rfl

/-! ## Its value -/

mutual

/-- A spelling names no anchor. -/
theorem number_node : ∀ (v : Spelling) (names : Names),
    number v.node names = some (v.node, names)
  | .null, _ => rfl
  | .bool _, _ => rfl
  | .number _, _ => rfl
  | .string _, _ => rfl
  | .emptyArray _, _ => rfl
  | .array before items, names => by
      show (numberItems items.nodes names >>= _) = _
      rw [numberItems_nodes items names]
      rfl
  | .emptyObject _, _ => rfl
  | .object before members, names => by
      show (numberEntries members.nodes names >>= _) = _
      rw [numberEntries_nodes members names]
      rfl

theorem numberItems_nodes : ∀ (items : SpelledItems) (names : Names),
    numberItems items.nodes names = some (items.nodes, names)
  | .last item after, names => by
      show (number item.node names >>= _) = _
      rw [number_node item names]
      rfl
  | .more item after before items, names => by
      show (number item.node names >>= _) = _
      rw [number_node item names]
      show (numberItems items.nodes names >>= _) = _
      rw [numberItems_nodes items names]
      rfl

theorem numberEntries_nodes : ∀ (members : SpelledMembers) (names : Names),
    numberEntries members.nodes names = some (members.nodes, names)
  | .last key value after, names => by
      show (number value.node names >>= _) = _
      rw [number_node value names]
      rfl
  | .more key value after before members, names => by
      show (number value.node names >>= _) = _
      rw [number_node value names]
      show (numberEntries members.nodes names >>= _) = _
      rw [numberEntries_nodes members names]
      rfl

end

mutual

/-- A spelling bears no anchor. -/
theorem anchored_node (found : List (Nat × Node Nat)) : ∀ v : Spelling,
    anchored found v.node = found
  | .null => rfl
  | .bool _ => rfl
  | .number _ => rfl
  | .string _ => rfl
  | .emptyArray _ => rfl
  | .array _ items => anchoredItems_nodes found items
  | .emptyObject _ => rfl
  | .object _ members => anchoredEntries_nodes found members

theorem anchoredItems_nodes (found : List (Nat × Node Nat)) : ∀ items : SpelledItems,
    anchoredItems found items.nodes = found
  | .last item _ => anchored_node found item
  | .more item _ _ items => by
      show anchoredItems (anchored found item.node) items.nodes = found
      rw [anchored_node found item, anchoredItems_nodes found items]

theorem anchoredEntries_nodes (found : List (Nat × Node Nat)) : ∀ members : SpelledMembers,
    anchoredEntries found members.nodes = found
  | .last _ value _ => anchored_node found value
  | .more _ value _ _ members => by
      show anchoredEntries (anchored found value.node) members.nodes = found
      rw [anchored_node found value, anchoredEntries_nodes found members]

end

section Values

variable (bearers : List (Nat × Node Nat)) (room : Nat)

theorem value_scalar (text : String) (isPlain : Bool) {j : Json}
    (h : scalarValue? none text isPlain = some j) :
    value bearers room (.scalar {} text isPlain) = pure j := by
  rw [value.eq_def]
  show StateT.lift (scalarValue? none text isPlain) = _
  rw [h]
  rfl

theorem value_sequence {items : List (Node Nat)} {values : List Json}
    (h : items.mapM (value bearers room) = pure values) :
    value bearers (room + 1) (.sequence {} items) = pure (.array values) := by
  rw [value]
  show (items.mapM (value bearers room) >>= fun values => pure (Json.array values)) = _
  rw [h, pure_bind]

/-- The member that an entry gives. -/
def member : Node Nat × Node Nat → Following (String × Json)
  | (key, node) => do
    let key ← keyText bearers key
    return (key, ← value bearers room node)

theorem value_mapping {entries : List (Node Nat × Node Nat)} {members : List (String × Json)}
    (h : entries.mapM (member bearers room) = pure members) :
    value bearers (room + 1) (.mapping {} entries) = pure (.object (Entries.ofList members)) := by
  rw [value]
  show (entries.mapM (member bearers room) >>= fun members =>
    pure (Json.object (Entries.ofList members))) = _
  rw [h, pure_bind]

theorem member_of_value {key : String} {isPlain : Bool} {node : Node Nat} {j : Json}
    (h : value bearers room node = pure j) :
    member bearers room (.scalar {} key isPlain, node) = pure (key, j) := by
  show (value bearers room node >>= fun j => pure (key, j)) = _
  rw [h, pure_bind]

end Values

theorem plainValue?_bool (b : Bool) :
    plainValue? (if b then "true" else "false") = some (.bool b) := by
  cases b <;> decide

mutual

/-- The value of a portable spelling is that of its document. -/
theorem value_node (bearers : List (Nat × Node Nat)) : ∀ {v : Spelling} (room : Nat), v.Portable →
    v.document.depth ≤ room → value bearers room v.node = pure v.document.sortMembers
  | .null, room, _, _ => value_scalar bearers room _ _ (by decide)
  | .bool b, room, _, _ => value_scalar bearers room _ _ (plainValue?_bool b)
  | .number _, room, h, _ => value_scalar bearers room _ _ (Json.Numeral.plainValue?_of_portable h)
  | .string _, room, _, _ => value_scalar bearers room _ _ rfl
  | .emptyArray _, room + 1, _, _ => value_sequence bearers room rfl
  | .array _ _, room + 1, h, hroom =>
      value_sequence bearers room (mapM_value_nodes bearers room h (Nat.le_of_succ_le_succ hroom))
  | .emptyObject _, room + 1, _, _ => value_mapping bearers room rfl
  | .object _ _, room + 1, h, hroom =>
      value_mapping bearers room (mapM_member_nodes bearers room h (Nat.le_of_succ_le_succ hroom))

theorem mapM_value_nodes (bearers : List (Nat × Node Nat)) : ∀ {items : SpelledItems} (room : Nat),
    items.Portable → Json.depthOfItems items.documents ≤ room →
      items.nodes.mapM (value bearers room) = pure (Json.sortItems items.documents)
  | .last _ _, room, h, hroom => by
      have hvalue := value_node bearers room h (Nat.le_trans (Nat.le_max_left _ _) hroom)
      rw [SpelledItems.nodes, List.mapM_cons, hvalue]
      rfl
  | .more _ _ _ _, room, h, hroom => by
      have hvalue := value_node bearers room h.1 (Nat.le_trans (Nat.le_max_left _ _) hroom)
      have hitems := mapM_value_nodes bearers room h.2 (Nat.le_trans (Nat.le_max_right _ _) hroom)
      rw [SpelledItems.nodes, List.mapM_cons, hvalue, hitems]
      rfl

theorem mapM_member_nodes (bearers : List (Nat × Node Nat)) :
    ∀ {members : SpelledMembers} (room : Nat), members.Portable →
      Json.depthOfMembers members.documents ≤ room →
        members.nodes.mapM (member bearers room) = pure (Json.sortMemberValues members.documents)
  | .last _ _ _, room, h, hroom => by
      have hvalue := value_node bearers room h.2 (Nat.le_trans (Nat.le_max_left _ _) hroom)
      rw [SpelledMembers.nodes, List.mapM_cons, member_of_value bearers room hvalue]
      rfl
  | .more _ _ _ _ _, room, h, hroom => by
      have hvalue := value_node bearers room h.1.2 (Nat.le_trans (Nat.le_max_left _ _) hroom)
      have hmembers :=
        mapM_member_nodes bearers room h.2 (Nat.le_trans (Nat.le_max_right _ _) hroom)
      rw [SpelledMembers.nodes, List.mapM_cons, member_of_value bearers room hvalue, hmembers]
      rfl

end

/-- The value of a document without anchors. -/
theorem toJson?_node {v : Spelling} (h : v.Portable) (hdepth : v.document.depth ≤ nestingLimit) :
    toJson? v.node = some v.document.sortMembers := by
  rw [toJson?]
  show (number v.node [] >>= _) = _
  rw [number_node]
  show ((value (anchored [] v.node) nestingLimit v.node).run (aliasFactor * v.node.size) >>= _) = _
  rw [anchored_node, value_node _ _ h hdepth]
  rfl

end Node

/-- A portable container is read as the value of its document. -/
theorem ofText?_of_portable {script : Json.Script} (h : script.Portable)
    (hcontainer : 0 < script.value.document.depth)
    (hdepth : script.value.document.depth ≤ Node.nestingLimit) {text : String}
    (htext : script.chars id = text.toList) :
    ofText? text = some script.value.document.sortMembers := by
  rw [ofText?]
  show (Token.ofText? text >>= _) = _
  rw [ofText?_script h hcontainer htext]
  show (Node.ofTokens? script.value.tokens >>= _) = _
  rw [Node.ofTokens?_tokens]
  exact Node.toJson?_node h.value hdepth

end Yaml

end Rollout
