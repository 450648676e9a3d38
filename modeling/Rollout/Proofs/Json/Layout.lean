import Rollout.Json.Printing
import Rollout.Json.Reading

/-!
# Layouts of JSON texts

The two printers write the same characters but for the blanks between them.  A `Layout` tells where
blanks stand: in front of each item, member and closing bracket, and behind each colon.
`Json.laidOut` prints a document in any layout, and the compact and the pretty text are the texts of
two layouts (`compactChars_eq`, `prettyChars_eq`).  A reader passes over blanks, so what is proved
of it for every layout holds of both texts.
-/

namespace Rollout.Json

/-- Nothing but blanks. -/
def AllBlank (cs : List Char) : Prop := ∀ c ∈ cs, isBlank c = true

theorem skipBlanks_append {blanks : List Char} (h : AllBlank blanks) (cs : List Char) :
    skipBlanks (blanks ++ cs) = skipBlanks cs := by
  induction blanks with
  | nil => rfl
  | cons c blanks ih =>
    obtain ⟨hc, hblanks⟩ := List.forall_mem_cons.mp h
    rw [List.cons_append, skipBlanks, if_pos hc, ih hblanks]

/-- The blanks of a text. -/
structure Layout where
  /-- In front of what stands at a level of nesting. -/
  gap : (level : Nat) → List Char
  /-- Between a colon and its value. -/
  behindColon : List Char
  allBlank_gap : ∀ level, AllBlank (gap level)
  allBlank_behindColon : AllBlank behindColon

namespace Layout

/-- No blanks. -/
def compact : Layout where
  gap _ := []
  behindColon := []
  allBlank_gap _ := List.forall_mem_nil _
  allBlank_behindColon := List.forall_mem_nil _

/-- A line for each item and member. -/
def pretty : Layout where
  gap := newLine
  behindColon := [' ']
  allBlank_gap _ := List.forall_mem_cons.mpr
    ⟨rfl, fun _ hc => congrArg isBlank (List.eq_of_mem_replicate hc)⟩
  allBlank_behindColon := List.forall_mem_singleton.mpr rfl

end Layout

mutual

/-- The document at a level of nesting. -/
def laidOut (l : Layout) (level : Nat) : Json → List Char
  | .null => ['n', 'u', 'l', 'l']
  | .bool true => ['t', 'r', 'u', 'e']
  | .bool false => ['f', 'a', 'l', 's', 'e']
  | .number n => n.chars
  | .string s => quote s
  | .array [] => ['[', ']']
  | .array (first :: rest) =>
    '[' :: (l.gap (level + 1) ++ (first.laidOut l (level + 1) ++ laidOutItems l level rest))
  | .object [] => ['{', '}']
  | .object ((key, first) :: rest) =>
    '{' :: (l.gap (level + 1) ++ (quote key ++ ':' :: (l.behindColon ++
      (first.laidOut l (level + 1) ++ laidOutMembers l level rest))))

/-- The further items, up to the closing bracket. -/
def laidOutItems (l : Layout) (level : Nat) : List Json → List Char
  | [] => l.gap level ++ [']']
  | j :: rest =>
    ',' :: (l.gap (level + 1) ++ (j.laidOut l (level + 1) ++ laidOutItems l level rest))

/-- The further members, up to the closing brace. -/
def laidOutMembers (l : Layout) (level : Nat) : List (String × Json) → List Char
  | [] => l.gap level ++ ['}']
  | (key, j) :: rest =>
    ',' :: (l.gap (level + 1) ++ (quote key ++ ':' :: (l.behindColon ++
      (j.laidOut l (level + 1) ++ laidOutMembers l level rest))))

end

/-! ## The compact layout -/

mutual

theorem compactChars_eq : ∀ (level : Nat) (j : Json), j.compactChars = j.laidOut .compact level
  | _, .null => rfl
  | _, .bool true => rfl
  | _, .bool false => rfl
  | _, .number _ => rfl
  | _, .string _ => rfl
  | _, .array [] => rfl
  | level, .array (first :: rest) => by
      rw [compactChars, laidOut, compactChars_eq (level + 1) first, compactItems_eq level rest]
      rfl
  | _, .object [] => rfl
  | level, .object ((key, first) :: rest) => by
      rw [compactChars, laidOut, compactChars_eq (level + 1) first, compactMembers_eq level rest]
      rfl

theorem compactItems_eq : ∀ (level : Nat) (items : List Json),
    compactItems items = laidOutItems .compact level items
  | _, [] => rfl
  | level, j :: rest => by
      rw [compactItems, laidOutItems, compactChars_eq (level + 1) j, compactItems_eq level rest]
      rfl

theorem compactMembers_eq : ∀ (level : Nat) (members : List (String × Json)),
    compactMembers members = laidOutMembers .compact level members
  | _, [] => rfl
  | level, (key, j) :: rest => by
      rw [compactMembers, laidOutMembers, compactChars_eq (level + 1) j,
        compactMembers_eq level rest]
      rfl

end

/-! ## The pretty layout -/

mutual

theorem prettyChars_eq : ∀ (level : Nat) (j : Json), j.prettyChars level = j.laidOut .pretty level
  | _, .null => rfl
  | _, .bool true => rfl
  | _, .bool false => rfl
  | _, .number _ => rfl
  | _, .string _ => rfl
  | _, .array [] => rfl
  | level, .array (first :: rest) => by
      rw [prettyChars, laidOut, prettyChars_eq (level + 1) first, prettyItems_eq level rest]
      rfl
  | _, .object [] => rfl
  | level, .object ((key, first) :: rest) => by
      rw [prettyChars, laidOut, prettyChars_eq (level + 1) first, prettyMembers_eq level rest]
      rfl

theorem prettyItems_eq : ∀ (level : Nat) (items : List Json),
    prettyItems level items = laidOutItems .pretty level items
  | _, [] => rfl
  | level, j :: rest => by
      rw [prettyItems, laidOutItems, prettyChars_eq (level + 1) j, prettyItems_eq level rest]
      rfl

theorem prettyMembers_eq : ∀ (level : Nat) (members : List (String × Json)),
    prettyMembers level members = laidOutMembers .pretty level members
  | _, [] => rfl
  | level, (key, j) :: rest => by
      rw [prettyMembers, laidOutMembers, prettyChars_eq (level + 1) j,
        prettyMembers_eq level rest]
      rfl

end

theorem toList_compact (j : Json) : j.compact.toList = j.laidOut .compact 0 := by
  rw [compact, String.toList_ofList, compactChars_eq 0]

theorem toList_pretty (j : Json) : j.pretty.toList = j.laidOut .pretty 0 := by
  rw [pretty, String.toList_ofList, prettyChars_eq]

end Rollout.Json
