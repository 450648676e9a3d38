/-!
# Maps in key order

A map is the list of its entries in strictly ascending key order, so that two maps with the same
entries are the same value and traversal needs no further convention.  `Entries.insert` is the one
writing operation: it walks to the place of its key, replaces an entry of that key or adds one
there.  `SortedMap` carries the order as a field; free-form objects, which nest, use the operations
on bare lists.
-/

namespace Rollout

variable {κ : Type} {α : Type}

/-! ## Entry lists -/

namespace Entries

/-- Each key is strictly below the keys after it. -/
def Ascending [Ord κ] (entries : List (κ × α)) : Prop :=
  entries.Pairwise fun a b => compare a.1 b.1 = .lt

/-- Put a value at the place of its key; the value that stood there gives way. -/
def insert [Ord κ] (key : κ) (value : α) : List (κ × α) → List (κ × α)
  | [] => [(key, value)]
  | (k, v) :: rest =>
    match compare key k with
    | .lt => (key, value) :: (k, v) :: rest
    | .eq => (key, value) :: rest
    | .gt => (k, v) :: insert key value rest

/-- Sort entries by key; of entries with one key the last is kept. -/
def ofList [Ord κ] (entries : List (κ × α)) : List (κ × α) :=
  entries.foldl (fun sorted e => insert e.1 e.2 sorted) []

theorem mem_insert [Ord κ] {key : κ} {value : α} {e : κ × α} {entries : List (κ × α)}
    (h : e ∈ insert key value entries) : e = (key, value) ∨ e ∈ entries := by
  induction entries with
  | nil => simpa [insert] using h
  | cons hd tl ih =>
    obtain ⟨k, v⟩ := hd
    simp only [insert] at h
    split at h <;> grind

theorem ascending_nil [Ord κ] : Ascending ([] : List (κ × α)) :=
  List.Pairwise.nil

theorem ascending_insert [Ord κ] [Std.TransOrd κ] [Std.LawfulEqOrd κ] (key : κ) (value : α)
    {entries : List (κ × α)} (h : Ascending entries) : Ascending (insert key value entries) := by
  induction entries with
  | nil => simp [insert, Ascending]
  | cons hd tl ih =>
    obtain ⟨k, v⟩ := hd
    obtain ⟨hk, htl⟩ := List.pairwise_cons.1 h
    simp only [insert]
    split
    · rename_i hlt
      refine List.pairwise_cons.2 ⟨fun e he => ?_, h⟩
      rcases List.mem_cons.1 he with rfl | he
      · exact hlt
      · exact Std.TransCmp.lt_trans hlt (hk e he)
    · rename_i heq
      have := Std.LawfulEqCmp.eq_of_compare heq
      subst this
      exact List.pairwise_cons.2 ⟨hk, htl⟩
    · rename_i hgt
      refine List.pairwise_cons.2 ⟨fun e he => ?_, ih htl⟩
      rcases mem_insert he with rfl | he
      · exact Std.OrientedCmp.gt_iff_lt.1 hgt
      · exact hk e he

theorem ascending_foldl [Ord κ] [Std.TransOrd κ] [Std.LawfulEqOrd κ] (added : List (κ × α))
    {entries : List (κ × α)} (h : Ascending entries) :
    Ascending (added.foldl (fun sorted e => insert e.1 e.2 sorted) entries) := by
  induction added generalizing entries with
  | nil => exact h
  | cons e _ ih => exact ih (ascending_insert e.1 e.2 h)

theorem ascending_ofList [Ord κ] [Std.TransOrd κ] [Std.LawfulEqOrd κ] (entries : List (κ × α)) :
    Ascending (ofList entries) :=
  ascending_foldl entries ascending_nil

end Entries

/-! ## The map type -/

/-- A finite map, represented by its entries in key order. -/
structure SortedMap (κ α : Type) [Ord κ] where
  entries : List (κ × α)
  ascending : Entries.Ascending entries

namespace SortedMap

variable [Ord κ]

instance [DecidableEq κ] [DecidableEq α] : DecidableEq (SortedMap κ α) := fun a b =>
  if h : a.entries = b.entries then
    isTrue (by cases a; cases b; cases h; rfl)
  else
    isFalse (fun e => h (e ▸ rfl))

/-- Maps with the same entries are equal. -/
theorem ext_entries {a b : SortedMap κ α} (h : a.entries = b.entries) : a = b := by
  cases a; cases b; cases h; rfl

/-- The map without entries. -/
def empty : SortedMap κ α := ⟨[], Entries.ascending_nil⟩

instance : Inhabited (SortedMap κ α) := ⟨empty⟩

/-- The value at a key. -/
def get? [BEq κ] (m : SortedMap κ α) (key : κ) : Option α :=
  m.entries.lookup key

/-- The keys in ascending order. -/
def keys (m : SortedMap κ α) : List κ := m.entries.map Prod.fst

/-- The values in the order of their keys. -/
def values (m : SortedMap κ α) : List α := m.entries.map Prod.snd

/-- Put a value at a key. -/
def insert [Std.TransOrd κ] [Std.LawfulEqOrd κ] (m : SortedMap κ α) (key : κ) (value : α) :
    SortedMap κ α :=
  ⟨Entries.insert key value m.entries, Entries.ascending_insert key value m.ascending⟩

/-- Drop the entry at a key. -/
def erase [DecidableEq κ] (m : SortedMap κ α) (key : κ) : SortedMap κ α :=
  ⟨m.entries.filter fun e => decide (e.1 ≠ key), m.ascending.sublist List.filter_sublist⟩

/-- The map of the given entries; of entries with one key the last is kept. -/
def ofList [Std.TransOrd κ] [Std.LawfulEqOrd κ] (entries : List (κ × α)) : SortedMap κ α :=
  ⟨Entries.ofList entries, Entries.ascending_ofList entries⟩

end SortedMap

end Rollout
