import Rollout.Json.Basic
import Rollout.Proofs.Json.Distinct
import Rollout.Proofs.SortedMap

/-!
# Values among the documents

A document is a value if it is its own value: `Json.IsValue`.  Taking the value of a document a
second time changes nothing (`Json.sortMembers_sortMembers`), so every document has a value.  What
it is to be one can be told part by part: an array is a value if its items are, an object if its
keys ascend and its members hold values.
-/

namespace Rollout

/-- A list that a function does not change is one whose items it does not change. -/
theorem map_eq_self_iff {α : Type} {f : α → α} {items : List α} :
    items.map f = items ↔ ∀ a ∈ items, f a = a := by
  induction items with
  | nil => simp
  | cons a rest ih => rw [List.map_cons, List.cons.injEq, ih, List.forall_mem_cons]

namespace Entries

variable {κ α : Type} [Ord κ] [Std.TransOrd κ] [Std.LawfulEqOrd κ] {entries : List (κ × α)}

/-- Entries in order stay as they are. -/
theorem ofList_of_ascending (h : Ascending entries) : ofList entries = entries :=
  congrArg SortedMap.entries (SortedMap.ofList_entries ⟨entries, h⟩)

end Entries

namespace Json

/-! ## Taking the value -/

theorem sortItems_eq_map (items : List Json) : sortItems items = items.map sortMembers := by
  induction items with
  | nil => rfl
  | cons j rest ih => rw [sortItems, ih, List.map_cons]

theorem sortMemberValues_eq_map (members : List (String × Json)) :
    sortMemberValues members = members.map fun m => (m.1, m.2.sortMembers) := by
  induction members with
  | nil => rfl
  | cons m rest ih => rw [sortMemberValues, ih, List.map_cons]

/-- Members that hold values do not change. -/
theorem sortMemberValues_of_values {members : List (String × Json)}
    (h : ∀ m ∈ members, m.2.sortMembers = m.2) : sortMemberValues members = members := by
  rw [sortMemberValues_eq_map, map_eq_self_iff]
  intro m hm
  rw [h m hm]

mutual

/-- A value is its own value. -/
theorem sortMembers_sortMembers : ∀ j : Json, j.sortMembers.sortMembers = j.sortMembers
  | .array items => by
      rw [sortMembers, sortMembers, sortItems_eq_map (sortItems items),
        map_eq_self_iff.mpr (sortMembers_of_mem_sortItems items)]
  | .object members => by
      have hvalues : ∀ m ∈ Entries.ofList (sortMemberValues members), m.2.sortMembers = m.2 :=
        fun m hm => sortMembers_of_mem_sortMemberValues members m (Entries.mem_of_mem_ofList hm)
      rw [sortMembers, sortMembers, sortMemberValues_of_values hvalues,
        Entries.ofList_of_ascending (Entries.ascending_ofList _)]
  | .null => rfl
  | .bool _ => rfl
  | .number _ => rfl
  | .string _ => rfl

theorem sortMembers_of_mem_sortItems : ∀ items : List Json, ∀ j ∈ sortItems items,
    j.sortMembers = j
  | [] => fun _ hj => absurd hj List.not_mem_nil
  | item :: rest =>
      List.forall_mem_cons.mpr ⟨sortMembers_sortMembers item, sortMembers_of_mem_sortItems rest⟩

theorem sortMembers_of_mem_sortMemberValues : ∀ members : List (String × Json),
    ∀ m ∈ sortMemberValues members, m.2.sortMembers = m.2
  | [] => fun _ hm => absurd hm List.not_mem_nil
  | (_, j) :: rest =>
      List.forall_mem_cons.mpr
        ⟨sortMembers_sortMembers j, sortMembers_of_mem_sortMemberValues rest⟩

end

/-! ## Values -/

/-- A document that is a value: every object in it has ascending keys, and so repeats none. -/
def IsValue (j : Json) : Prop := j.sortMembers = j

instance (j : Json) : Decidable j.IsValue := inferInstanceAs (Decidable (j.sortMembers = j))

@[simp] theorem isValue_array (items : List Json) :
    (Json.array items).IsValue ↔ ∀ j ∈ items, j.IsValue := by
  rw [IsValue, sortMembers, sortItems_eq_map, Json.array.injEq, map_eq_self_iff]
  rfl

@[simp] theorem isValue_object (members : List (String × Json)) :
    (Json.object members).IsValue ↔
      Entries.Ascending members ∧ ∀ m ∈ members, m.2.IsValue := by
  constructor
  · intro h
    rw [IsValue, sortMembers, Json.object.injEq] at h
    rw [← h]
    exact ⟨Entries.ascending_ofList _, fun m hm =>
      sortMembers_of_mem_sortMemberValues members m (Entries.mem_of_mem_ofList hm)⟩
  · rintro ⟨hascending, hvalues⟩
    rw [IsValue, sortMembers, sortMemberValues_of_values hvalues,
      Entries.ofList_of_ascending hascending]

end Json

end Rollout
