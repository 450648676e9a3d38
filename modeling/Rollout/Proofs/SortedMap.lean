import Rollout.SortedMap

/-!
# Laws of sorted maps

An ascending list of entries has one entry for each of its keys, so membership says all there is to
say about it: `Entries.lookup_eq_some_iff_mem` reads a lookup as membership,
`Entries.mem_insert_iff` tells the members after an insertion, and `Entries.ext_mem` that lists with
the same members are one list.  The laws of `SortedMap` are these three in terms of `get?`.

Of entries in any order a lookup still gives one of them, the first of its key; functions that walk
over members by themselves are lookups too (`Entries.walk_eq_elim_lookup`).
-/

namespace Rollout

variable {κ α β : Type} [Ord κ] [Std.TransOrd κ] [Std.LawfulEqOrd κ]

/-! ## Entry lists -/

namespace Entries

omit [Std.TransOrd κ] in
/-- No key stands twice. -/
theorem Ascending.nodup_keys {entries : List (κ × α)} (h : Ascending entries) :
    (entries.map Prod.fst).Nodup := by
  refine List.pairwise_map.mpr (h.imp ?_)
  intro a b hlt heq
  simp [heq] at hlt

omit [Std.TransOrd κ] in
theorem Ascending.nodup {entries : List (κ × α)} (h : Ascending entries) : entries.Nodup := by
  refine h.imp ?_
  rintro a _ hlt rfl
  simp at hlt

omit [Ord κ] [Std.TransOrd κ] [Std.LawfulEqOrd κ] in
/-- What a lookup finds is an entry, in whatever order the entries stand. -/
theorem mem_of_lookup [BEq κ] [LawfulBEq κ] {entries : List (κ × α)} {key : κ} {value : α}
    (h : entries.lookup key = some value) : (key, value) ∈ entries := by
  obtain ⟨before, behind, rfl, -⟩ := List.lookup_eq_some_iff.mp h
  exact List.mem_append_right _ List.mem_cons_self

omit [Ord κ] [Std.TransOrd κ] [Std.LawfulEqOrd κ] in
/-- A walk over entries that answers at the first one of a key is a lookup. -/
theorem walk_eq_elim_lookup [BEq κ] {walk : List (κ × α) → β} {key : κ} {absent : β}
    {found : α → β} (hnil : walk [] = absent)
    (hcons : ∀ k v rest, walk ((k, v) :: rest) = if key == k then found v else walk rest)
    (entries : List (κ × α)) : walk entries = (entries.lookup key).elim absent found := by
  induction entries with
  | nil => exact hnil
  | cons e rest ih =>
    obtain ⟨k, v⟩ := e
    rw [hcons, List.lookup_cons, ih]
    cases key == k <;> rfl

/-- A lookup finds the one entry of its key. -/
theorem lookup_eq_some_iff_mem [BEq κ] [LawfulBEq κ] {entries : List (κ × α)}
    (h : Ascending entries) {key : κ} {value : α} :
    entries.lookup key = some value ↔ (key, value) ∈ entries := by
  induction entries with
  | nil => simp
  | cons e rest ih =>
    obtain ⟨k, v⟩ := e
    have hnodup := h.nodup_keys
    rw [List.map_cons, List.nodup_cons] at hnodup
    by_cases hk : key = k
    · subst hk
      have hrest : (key, value) ∉ rest := by
        intro hmem
        exact hnodup.1 (List.mem_map.mpr ⟨_, hmem, rfl⟩)
      simp [hrest, eq_comm]
    · rw [List.lookup_cons, beq_false_of_ne hk]
      simp [ih h.of_cons, hk]

/-- There is at most one entry of a key, the one that a lookup finds. -/
theorem filter_eq_toList_lookup [BEq κ] [LawfulBEq κ] [DecidableEq κ] {entries : List (κ × α)}
    (h : Ascending entries) (key : κ) :
    entries.filter (·.1 = key) = ((entries.lookup key).map (key, ·)).toList := by
  induction entries with
  | nil => rfl
  | cons e rest ih =>
    obtain ⟨k, v⟩ := e
    have hnodup := h.nodup_keys
    rw [List.map_cons, List.nodup_cons] at hnodup
    by_cases hk : k = key
    · subst hk
      have hrest : rest.filter (·.1 = k) = [] := by
        refine List.filter_eq_nil_iff.mpr fun e he heq => ?_
        rw [decide_eq_true_eq] at heq
        exact hnodup.1 (List.mem_map.mpr ⟨e, he, heq⟩)
      simp [hrest]
    · rw [List.filter_cons_of_neg (by simpa using hk), List.lookup_cons,
        beq_false_of_ne (Ne.symm hk), ih h.of_cons]

/-- After an insertion the new entry and those of other keys are there. -/
theorem mem_insert_iff {entries : List (κ × α)} (h : Ascending entries) {key : κ} {value : α}
    {e : κ × α} : e ∈ insert key value entries ↔ e = (key, value) ∨ e.1 ≠ key ∧ e ∈ entries := by
  induction entries with
  | nil => simp [insert]
  | cons hd rest ih =>
    obtain ⟨k, v⟩ := hd
    obtain ⟨hk, hrest⟩ := List.pairwise_cons.mp h
    have hafter : ∀ e ∈ rest, e.1 ≠ k := by
      rintro e he rfl
      exact absurd (hk e he) (by simp)
    simp only [insert]
    split
    next hlt =>
      have hother : ∀ e ∈ (k, v) :: rest, e.1 ≠ key := by
        intro e he heq
        subst heq
        rcases List.mem_cons.mp he with rfl | he
        · exact absurd hlt (by simp)
        · exact absurd (Std.TransCmp.lt_trans hlt (hk e he)) (by simp)
      rw [List.mem_cons]
      exact or_congr_right ⟨fun he => ⟨hother e he, he⟩, And.right⟩
    next heq =>
      cases Std.LawfulEqCmp.eq_of_compare heq
      rw [List.mem_cons, List.mem_cons]
      refine or_congr_right ⟨fun he => ⟨hafter e he, .inr he⟩, ?_⟩
      rintro ⟨hne, rfl | he⟩
      · exact absurd rfl hne
      · exact he
    next hgt =>
      have hkey : k ≠ key := by
        rintro rfl
        simp at hgt
      rw [List.mem_cons, ih hrest, List.mem_cons]
      constructor
      · rintro (rfl | rfl | ⟨hne, he⟩)
        · exact .inr ⟨hkey, .inl rfl⟩
        · exact .inl rfl
        · exact .inr ⟨hne, .inr he⟩
      · rintro (rfl | ⟨hne, rfl | he⟩)
        · exact .inr (.inl rfl)
        · exact .inl rfl
        · exact .inr (.inr ⟨hne, he⟩)

omit [Std.TransOrd κ] in
/-- An insertion at a fresh key takes nothing away. -/
theorem sublist_insert {key : κ} {value : α} : ∀ {entries : List (κ × α)},
    key ∉ entries.map Prod.fst → entries.Sublist (insert key value entries)
  | [], _ => List.nil_sublist _
  | (k, v) :: rest, hfresh => by
      rw [List.map_cons, List.mem_cons, not_or] at hfresh
      rw [insert]
      split
      next => exact List.sublist_cons_self _ _
      next heq => exact absurd (Std.LawfulEqCmp.eq_of_compare heq) hfresh.1
      next => exact (sublist_insert hfresh.2).cons_cons _

/-- Inserting entries of distinct keys one by one keeps them all, and of the others those whose key
is not among them. -/
theorem mem_foldl_insert_iff {added : List (κ × α)} (hadded : (added.map Prod.fst).Nodup)
    {entries : List (κ × α)} (h : Ascending entries) {e : κ × α} :
    e ∈ added.foldl (fun sorted a => insert a.1 a.2 sorted) entries ↔
      e ∈ added ∨ e.1 ∉ added.map Prod.fst ∧ e ∈ entries := by
  induction added generalizing entries with
  | nil => simp
  | cons a rest ih =>
    rw [List.map_cons, List.nodup_cons] at hadded
    rw [List.foldl_cons, ih hadded.2 (ascending_insert a.1 a.2 h), mem_insert_iff h, List.mem_cons,
      List.map_cons, List.mem_cons]
    constructor
    · rintro (he | ⟨hrest, rfl | ⟨hne, he⟩⟩)
      · exact .inl (.inr he)
      · exact .inl (.inl rfl)
      · exact .inr ⟨not_or.mpr ⟨hne, hrest⟩, he⟩
    · rintro ((rfl | he) | ⟨hnot, he⟩)
      · exact .inr ⟨hadded.1, .inl rfl⟩
      · exact .inl he
      · exact .inr ⟨(not_or.mp hnot).2, .inr ⟨(not_or.mp hnot).1, he⟩⟩

/-- Ascending lists with the same members are equal. -/
theorem ext_mem {as bs : List (κ × α)} (ha : Ascending as) (hb : Ascending bs)
    (h : ∀ e, e ∈ as ↔ e ∈ bs) : as = bs := by
  refine List.Perm.eq_of_pairwise ?_ ha hb ((List.perm_ext_iff_of_nodup ha.nodup hb.nodup).mpr h)
  intro a b _ _ hab hba
  have := Std.TransCmp.lt_trans hab hba
  simp at this

end Entries

/-! ## Maps -/

namespace SortedMap

variable [BEq κ] [LawfulBEq κ]

/-- The entries are the keys with their values. -/
theorem mem_entries {m : SortedMap κ α} {key : κ} {value : α} :
    (key, value) ∈ m.entries ↔ m.get? key = some value :=
  (Entries.lookup_eq_some_iff_mem m.ascending).symm

theorem mem_values {m : SortedMap κ α} {value : α} :
    value ∈ m.values ↔ ∃ key, m.get? key = some value := by
  simp only [values, List.mem_map, Prod.exists, mem_entries, exists_eq_right]

/-- Maps that give the same answers are equal. -/
theorem ext_get? {a b : SortedMap κ α} (h : ∀ key, a.get? key = b.get? key) : a = b := by
  refine ext_entries (Entries.ext_mem a.ascending b.ascending ?_)
  rintro ⟨key, value⟩
  rw [mem_entries, mem_entries, h key]

omit [Std.TransOrd κ] [Std.LawfulEqOrd κ] [LawfulBEq κ] in
@[simp] theorem get?_empty (key : κ) : (empty : SortedMap κ α).get? key = none := rfl

/-- An inserted value stands at its key, and nothing else has changed. -/
theorem get?_insert [DecidableEq κ] (m : SortedMap κ α) (key : κ) (value : α) (other : κ) :
    (m.insert key value).get? other = if other = key then some value else m.get? other := by
  have hmem : ∀ v, (m.insert key value).get? other = some v ↔
      (other, v) = (key, value) ∨ other ≠ key ∧ m.get? other = some v := by
    intro v
    rw [← mem_entries, ← mem_entries]
    exact Entries.mem_insert_iff m.ascending
  refine Option.ext fun v => ?_
  rw [hmem v]
  by_cases h : other = key
  · simp [h, eq_comm]
  · simp [h]

/-- Of two insertions at one key the later one counts. -/
@[simp] theorem insert_insert [DecidableEq κ] (m : SortedMap κ α) (key : κ) (value later : α) :
    (m.insert key value).insert key later = m.insert key later := by
  refine ext_get? fun other => ?_
  rw [get?_insert, get?_insert, get?_insert]
  split <;> rfl

theorem get?_erase [DecidableEq κ] (m : SortedMap κ α) (key other : κ) :
    (m.erase key).get? other = if other = key then none else m.get? other := by
  refine Option.ext fun v => ?_
  rw [← mem_entries]
  by_cases h : other = key
  · simp [erase, h]
  · simp [erase, h, mem_entries]

/-- There is at most one entry of a key. -/
theorem filter_entries [DecidableEq κ] (m : SortedMap κ α) (key : κ) :
    m.entries.filter (·.1 = key) = ((m.get? key).map (key, ·)).toList :=
  Entries.filter_eq_toList_lookup m.ascending key

/-- An insertion at a fresh key takes no value away. -/
theorem values_sublist_insert {m : SortedMap κ α} {key : κ} (value : α)
    (hfresh : m.get? key = none) : m.values.Sublist (m.insert key value).values := by
  refine (Entries.sublist_insert ?_).map Prod.snd
  intro hmem
  obtain ⟨⟨k, v⟩, hentry, rfl⟩ := List.mem_map.mp hmem
  rw [mem_entries.mp hentry] at hfresh
  cases hfresh

/-- A map whose values are changed, each on its own. -/
def mapValues (f : α → β) (m : SortedMap κ α) : SortedMap κ β where
  entries := m.entries.map fun e => (e.1, f e.2)
  ascending := by
    have h := m.ascending
    unfold Entries.Ascending at h ⊢
    rw [List.pairwise_map]
    exact h

omit [Std.TransOrd κ] [Std.LawfulEqOrd κ] [BEq κ] [LawfulBEq κ] in
@[simp] theorem values_mapValues (f : α → β) (m : SortedMap κ α) :
    (m.mapValues f).values = m.values.map f := by
  simp [values, mapValues, Function.comp_def]

@[simp] theorem get?_mapValues (f : α → β) (m : SortedMap κ α) (key : κ) :
    (m.mapValues f).get? key = (m.get? key).map f := by
  refine Option.ext fun v => ?_
  rw [← mem_entries]
  simp only [mapValues, List.mem_map, Prod.exists, Prod.mk.injEq, mem_entries,
    Option.map_eq_some_iff]
  constructor
  · rintro ⟨_, a, ha, rfl, rfl⟩
    exact ⟨a, ha, rfl⟩
  · rintro ⟨a, ha, rfl⟩
    exact ⟨key, a, ha, rfl, rfl⟩

/-- An insertion may come before or after the change of the values. -/
theorem mapValues_insert [DecidableEq κ] (f : α → β) (m : SortedMap κ α) (key : κ) (value : α) :
    (m.insert key value).mapValues f = (m.mapValues f).insert key (f value) := by
  refine ext_get? fun other => ?_
  rw [get?_insert, get?_mapValues, get?_mapValues, get?_insert]
  split <;> rfl

/-- A map whose value at a key is changed, if there is one. -/
def modify [DecidableEq κ] (m : SortedMap κ α) (key : κ) (f : α → α) : SortedMap κ α where
  entries := m.entries.map fun e => (e.1, if e.1 = key then f e.2 else e.2)
  ascending := by
    have h := m.ascending
    unfold Entries.Ascending at h ⊢
    rw [List.pairwise_map]
    exact h

@[simp] theorem get?_modify [DecidableEq κ] (m : SortedMap κ α) (key : κ) (f : α → α) (other : κ) :
    (m.modify key f).get? other = if other = key then (m.get? other).map f else m.get? other := by
  refine Option.ext fun v => ?_
  rw [← mem_entries]
  simp only [modify, List.mem_map, Prod.exists, Prod.mk.injEq, mem_entries]
  by_cases h : other = key
  · rw [if_pos h, Option.map_eq_some_iff]
    constructor
    · rintro ⟨k, a, hget, rfl, rfl⟩
      exact ⟨a, hget, (if_pos h).symm⟩
    · rintro ⟨a, hget, rfl⟩
      exact ⟨other, a, hget, rfl, if_pos h⟩
  · rw [if_neg h]
    constructor
    · rintro ⟨k, a, hget, rfl, rfl⟩
      rwa [if_neg h]
    · intro hget
      exact ⟨other, v, hget, rfl, if_neg h⟩

/-- Changes at different keys, and changes that commute, may be made in either order. -/
theorem modify_comm [DecidableEq κ] (m : SortedMap κ α) {key other : κ} {f g : α → α}
    (h : key ≠ other ∨ ∀ a, g (f a) = f (g a)) :
    (m.modify key f).modify other g = (m.modify other g).modify key f := by
  refine ext_get? fun k => ?_
  simp only [get?_modify]
  by_cases hkey : k = key
  · subst hkey
    by_cases hother : k = other
    · subst hother
      have hcomm : ∀ a, g (f a) = f (g a) := h.resolve_left (by simp)
      cases m.get? k with
      | none => simp
      | some a => simp [hcomm]
    · simp [hother]
  · simp [hkey]

/-- Where there is a value, changing it is inserting the changed one. -/
theorem modify_of_get? [DecidableEq κ] {m : SortedMap κ α} {key : κ} {a : α} (h : m.get? key = some a)
    (f : α → α) : m.modify key f = m.insert key (f a) := by
  refine ext_get? fun other => ?_
  rw [get?_modify, get?_insert]
  by_cases hkey : other = key
  · simp [hkey, h]
  · simp [hkey]

/-- A change that changes nothing where it is made. -/
theorem modify_eq_self [DecidableEq κ] {m : SortedMap κ α} {key : κ} {f : α → α}
    (h : ∀ a, m.get? key = some a → f a = a) : m.modify key f = m := by
  refine ext_get? fun other => ?_
  rw [get?_modify]
  by_cases hkey : other = key
  · subst hkey
    rw [if_pos rfl]
    cases hget : m.get? other with
    | none => rfl
    | some a => rw [Option.map_some, h a hget]
  · rw [if_neg hkey]

omit [BEq κ] [LawfulBEq κ] in
theorem entries_foldl_insert (added : List (κ × α)) : ∀ m : SortedMap κ α,
    (added.foldl (fun m e => m.insert e.1 e.2) m).entries =
      added.foldl (fun sorted e => Entries.insert e.1 e.2 sorted) m.entries := by
  induction added with
  | nil => exact fun m => rfl
  | cons e rest ih => exact fun m => ih (m.insert e.1 e.2)

omit [BEq κ] [LawfulBEq κ] in
/-- Inserting entries one by one into the empty map gives the map of the entries. -/
theorem foldl_insert_empty (added : List (κ × α)) :
    added.foldl (fun m e => m.insert e.1 e.2) empty = ofList added :=
  ext_entries (entries_foldl_insert added empty)

omit [BEq κ] [LawfulBEq κ] in
/-- Reading the entries of a map one by one gives the map back. -/
theorem ofList_entries (m : SortedMap κ α) : ofList m.entries = m := by
  refine ext_entries (Entries.ext_mem (Entries.ascending_ofList _) m.ascending fun e => ?_)
  refine (Entries.mem_foldl_insert_iff m.ascending.nodup_keys Entries.ascending_nil).trans ?_
  simp

end SortedMap

end Rollout
