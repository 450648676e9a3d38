import Rollout.Power
import Rollout.SortedMap

/-!
# JSON values

Numbers are integers of the 64-bit ranges (signed or unsigned) or doubles.  An object is a list of
members.  A *document* may list members in any order and repeat keys, as a text may; `sortMembers`
gives the *value* of a document, where every object has ascending keys and a repeated key has kept
its last member.
-/

namespace Rollout

/-! ## Numbers -/

/-- A JSON number: an integer of the signed or unsigned 64-bit range, or a double. -/
inductive Number where
  | integer (value : Int) (inRange : -2 ^ 63 ≤ value ∧ value < 2 ^ 64)
  | double (value : Float)
deriving DecidableEq

namespace Number

/-- An integer as a number, if it is in range. -/
def ofInt? (n : Int) : Option Number :=
  if h : -2 ^ 63 ≤ n ∧ n < 2 ^ 64 then some (.integer n h) else none

/-- A 64-bit natural number as a number. -/
def ofUInt64 (n : UInt64) : Number :=
  .integer n.toNat ⟨by omega, by have := n.toNat_lt; omega⟩

end Number

/-! ## Values -/

/-- A JSON value, or a JSON document when members may be out of order or repeated. -/
inductive Json where
  | null
  | bool (value : Bool)
  | number (value : Number)
  | string (value : String)
  | array (items : List Json)
  | object (members : List (String × Json))

namespace Json

instance : Inhabited Json := ⟨.null⟩

/-! ### Equality -/

mutual

/-- Equality test on values. -/
def beq : Json → Json → Bool
  | .null, .null => true
  | .bool a, .bool b => decide (a = b)
  | .number a, .number b => decide (a = b)
  | .string a, .string b => decide (a = b)
  | .array a, .array b => beqItems a b
  | .object a, .object b => beqMembers a b
  | _, _ => false

/-- Equality test on item lists. -/
def beqItems : List Json → List Json → Bool
  | [], [] => true
  | a :: as, b :: bs => beq a b && beqItems as bs
  | _, _ => false

/-- Equality test on member lists. -/
def beqMembers : List (String × Json) → List (String × Json) → Bool
  | [], [] => true
  | (k, a) :: as, (l, b) :: bs => decide (k = l) && beq a b && beqMembers as bs
  | _, _ => false

end

mutual

theorem eq_of_beq : ∀ (a b : Json), beq a b = true → a = b
  | .null, b, h => by cases b <;> simp_all [beq]
  | .bool _, b, h => by cases b <;> simp_all [beq]
  | .number _, b, h => by cases b <;> simp_all [beq]
  | .string _, b, h => by cases b <;> simp_all [beq]
  | .array xs, b, h => by
      cases b <;> simp only [beq, Bool.false_eq_true] at h
      rw [eq_of_beqItems xs _ h]
  | .object xs, b, h => by
      cases b <;> simp only [beq, Bool.false_eq_true] at h
      rw [eq_of_beqMembers xs _ h]

theorem eq_of_beqItems : ∀ (a b : List Json), beqItems a b = true → a = b
  | [], b, h => by cases b <;> simp_all [beqItems]
  | x :: xs, b, h => by
      cases b with
      | nil => simp [beqItems] at h
      | cons y ys =>
        simp only [beqItems, Bool.and_eq_true] at h
        rw [eq_of_beq x y h.1, eq_of_beqItems xs ys h.2]

theorem eq_of_beqMembers : ∀ (a b : List (String × Json)), beqMembers a b = true → a = b
  | [], b, h => by cases b <;> simp_all [beqMembers]
  | (k, x) :: xs, b, h => by
      cases b with
      | nil => simp [beqMembers] at h
      | cons y ys =>
        simp only [beqMembers, Bool.and_eq_true, decide_eq_true_eq] at h
        rw [h.1.1, eq_of_beq x y.2 h.1.2, eq_of_beqMembers xs ys h.2]

end

mutual

theorem beq_self : ∀ a : Json, beq a a = true
  | .null => rfl
  | .bool _ => by simp [beq]
  | .number _ => by simp [beq]
  | .string _ => by simp [beq]
  | .array xs => by simp [beq, beqItems_self xs]
  | .object xs => by simp [beq, beqMembers_self xs]

theorem beqItems_self : ∀ a : List Json, beqItems a a = true
  | [] => rfl
  | x :: xs => by simp [beqItems, beq_self x, beqItems_self xs]

theorem beqMembers_self : ∀ a : List (String × Json), beqMembers a a = true
  | [] => rfl
  | (k, x) :: xs => by simp [beqMembers, beq_self x, beqMembers_self xs]

end

instance : DecidableEq Json := fun a b =>
  if h : beq a b = true then isTrue (eq_of_beq a b h)
  else isFalse fun e => h (e ▸ beq_self a)

/-! ### The value of a document -/

mutual

/-- The value of a document: ascending keys, the last member of each key. -/
def sortMembers : Json → Json
  | .array items => .array (sortItems items)
  | .object members => .object (Entries.ofList (sortMemberValues members))
  | j => j

/-- The values of the items. -/
def sortItems : List Json → List Json
  | [] => []
  | j :: rest => j.sortMembers :: sortItems rest

/-- The values of the members, in place. -/
def sortMemberValues : List (String × Json) → List (String × Json)
  | [] => []
  | (key, j) :: rest => (key, j.sortMembers) :: sortMemberValues rest

end

/-! ### Parts -/

/-- The member of an object at a key. -/
def member? (key : String) : Json → Option Json
  | .object members => members.lookup key
  | _ => none

/-- The text of a string value. -/
def text? : Json → Option String
  | .string s => some s
  | _ => none

end Json

end Rollout
