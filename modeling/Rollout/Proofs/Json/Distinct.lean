import Mathlib.Data.List.Nodup
import Rollout.Json.Basic
import Rollout.Proofs.SortedMap

/-!
# Documents without repeated keys

A document may repeat a key, a value does not (`Json.keysDistinct_sortMembers`).
`Json.KeysDistinct` says that no object repeats one, at any depth: an array has the property if its
items have it, an object if its keys differ and the values of its members have it.  What is known of
an object carries over to members in another order, to some of its members, and to members with one
more of a new key.

Behind it stands a fact about any entries with distinct keys: each of them can be taken to the front
(`Entries.perm_cons_filter`).
-/

namespace Rollout

/-! ## Entries with distinct keys -/

namespace Entries

variable {κ α : Type} [BEq κ] [LawfulBEq κ] {entries : List (κ × α)} {key : κ} {value : α}

/-- An entry in front of those of other keys. -/
theorem perm_cons_filter (hnd : (entries.map Prod.fst).Nodup) (h : (key, value) ∈ entries) :
    entries.Perm ((key, value) :: entries.filter fun e => e.1 != key) := by
  obtain ⟨before, behind, rfl⟩ := List.append_of_mem h
  rw [List.map_append, List.map_cons, List.nodup_middle, List.nodup_cons, List.mem_append] at hnd
  have hkept : ∀ part : List (κ × α), key ∉ part.map Prod.fst →
      part.filter (fun e => e.1 != key) = part := by
    intro part hout
    refine List.filter_eq_self.mpr fun e he => bne_iff_ne.mpr ?_
    rintro rfl
    exact hout (List.mem_map.mpr ⟨e, he, rfl⟩)
  have hout := not_or.mp hnd.1
  rw [List.filter_append, List.filter_cons_of_neg (by simp), hkept before hout.1,
    hkept behind hout.2]
  exact List.perm_middle

omit [BEq κ] [LawfulBEq κ] in
/-- Sorting adds no entry. -/
theorem mem_of_mem_ofList [Ord κ] {e : κ × α} (h : e ∈ ofList entries) : e ∈ entries := by
  have hfold : ∀ added sorted : List (κ × α),
      e ∈ added.foldl (fun sorted e => insert e.1 e.2 sorted) sorted → e ∈ added ∨ e ∈ sorted := by
    intro added
    induction added with
    | nil => exact fun sorted hmem => .inr hmem
    | cons a rest ih =>
      intro sorted hmem
      rcases ih _ hmem with hrest | hsorted
      · exact .inl (List.mem_cons_of_mem _ hrest)
      · rcases mem_insert hsorted with rfl | hsorted
        · exact .inl List.mem_cons_self
        · exact .inr hsorted
  exact (hfold entries [] h).resolve_right List.not_mem_nil

end Entries

namespace Json

/-! ## Documents -/

mutual

/-- No object of the document has a key twice. -/
def KeysDistinct : Json → Prop
  | .array items => ItemsDistinct items
  | .object members => (members.map Prod.fst).Nodup ∧ MembersDistinct members
  | _ => True

/-- No object of the items has a key twice. -/
def ItemsDistinct : List Json → Prop
  | [] => True
  | j :: rest => j.KeysDistinct ∧ ItemsDistinct rest

/-- No object inside the members has a key twice. -/
def MembersDistinct : List (String × Json) → Prop
  | [] => True
  | (_, j) :: rest => j.KeysDistinct ∧ MembersDistinct rest

end

@[simp] theorem keysDistinct_null : Json.null.KeysDistinct := trivial

@[simp] theorem keysDistinct_string (s : String) : (Json.string s).KeysDistinct := trivial

@[simp] theorem keysDistinct_bool (b : Bool) : (Json.bool b).KeysDistinct := trivial

@[simp] theorem keysDistinct_array (items : List Json) :
    (Json.array items).KeysDistinct ↔ ∀ j ∈ items, j.KeysDistinct := by
  change ItemsDistinct items ↔ _
  induction items with
  | nil => simp [ItemsDistinct]
  | cons j rest ih => rw [ItemsDistinct, ih, List.forall_mem_cons]

@[simp] theorem keysDistinct_object (members : List (String × Json)) :
    (Json.object members).KeysDistinct ↔
      (members.map Prod.fst).Nodup ∧ ∀ m ∈ members, m.2.KeysDistinct := by
  have hvalues : MembersDistinct members ↔ ∀ m ∈ members, m.2.KeysDistinct := by
    induction members with
    | nil => simp [MembersDistinct]
    | cons m rest ih => rw [MembersDistinct, ih, List.forall_mem_cons]
  exact and_congr_right fun _ => hvalues

/-- A member may be put in front of members of other keys. -/
@[simp] theorem keysDistinct_object_cons {key : String} {value : Json}
    {members : List (String × Json)} :
    (Json.object ((key, value) :: members)).KeysDistinct ↔
      (∀ m ∈ members, m.1 ≠ key) ∧ value.KeysDistinct ∧ (Json.object members).KeysDistinct := by
  have hkeys : key ∉ members.map Prod.fst ↔ ∀ m ∈ members, m.1 ≠ key := by
    simp only [List.mem_map, not_exists, not_and]
  rw [keysDistinct_object, keysDistinct_object, List.map_cons, List.nodup_cons, hkeys,
    List.forall_mem_cons]
  exact ⟨fun ⟨⟨h, hnd⟩, hv, hvs⟩ => ⟨h, hv, hnd, hvs⟩, fun ⟨h, hv, hnd, hvs⟩ => ⟨⟨h, hnd⟩, hv, hvs⟩⟩

namespace KeysDistinct

variable {members members' : List (String × Json)}

theorem nodup_keys (h : (Json.object members).KeysDistinct) : (members.map Prod.fst).Nodup :=
  ((keysDistinct_object members).mp h).1

theorem member (h : (Json.object members).KeysDistinct) {m : String × Json} (hm : m ∈ members) :
    m.2.KeysDistinct :=
  ((keysDistinct_object members).mp h).2 m hm

/-- The order of members does not matter. -/
theorem perm (h : (Json.object members).KeysDistinct) (hperm : members.Perm members') :
    (Json.object members').KeysDistinct :=
  (keysDistinct_object _).mpr
    ⟨(hperm.map Prod.fst).nodup_iff.mp h.nodup_keys, fun _ hm => h.member (hperm.mem_iff.mpr hm)⟩

theorem filter (h : (Json.object members).KeysDistinct) (kept : String × Json → Bool) :
    (Json.object (members.filter kept)).KeysDistinct :=
  (keysDistinct_object _).mpr
    ⟨h.nodup_keys.sublist (List.filter_sublist.map Prod.fst),
      fun _ hm => h.member (List.mem_filter.mp hm).1⟩

/-- A member may be put behind members of other keys. -/
theorem append_member (h : (Json.object members).KeysDistinct) {key : String} {value : Json}
    (hkey : ∀ m ∈ members, m.1 ≠ key) (hvalue : value.KeysDistinct) :
    (Json.object (members ++ [(key, value)])).KeysDistinct :=
  perm (keysDistinct_object_cons.mpr ⟨hkey, hvalue, h⟩) (List.perm_append_singleton _ _).symm

end KeysDistinct

/-! ## Values -/

mutual

/-- The value of a document repeats no key. -/
theorem keysDistinct_sortMembers : ∀ j : Json, j.sortMembers.KeysDistinct
  | .array items => (keysDistinct_array _).mpr (keysDistinct_sortItems items)
  | .object members =>
      (keysDistinct_object _).mpr ⟨(Entries.ascending_ofList _).nodup_keys,
        fun m hm => keysDistinct_sortMemberValues members m (Entries.mem_of_mem_ofList hm)⟩
  | .null => trivial
  | .bool _ => trivial
  | .number _ => trivial
  | .string _ => trivial

theorem keysDistinct_sortItems : ∀ items : List Json, ∀ j ∈ sortItems items, j.KeysDistinct
  | [] => fun _ hj => absurd hj List.not_mem_nil
  | item :: rest =>
      List.forall_mem_cons.mpr ⟨keysDistinct_sortMembers item, keysDistinct_sortItems rest⟩

theorem keysDistinct_sortMemberValues : ∀ members : List (String × Json),
    ∀ m ∈ sortMemberValues members, m.2.KeysDistinct
  | [] => fun _ hm => absurd hm List.not_mem_nil
  | (_, j) :: rest =>
      List.forall_mem_cons.mpr ⟨keysDistinct_sortMembers j, keysDistinct_sortMemberValues rest⟩

end

end Json

end Rollout
