import Mathlib.Data.List.FinRange
import Mathlib.Data.List.Sort
import Mathlib.Data.String.Basic
import Mathlib.Logic.Relation
import Rollout.Proofs.Graph.Scopes
import Rollout.Proofs.Text.Order

/-!
# What the search for unreachable states finds

The search gathers exactly the nodes that can be come to from those it starts with
(`mem_gather_finRange`): what it gathers it came to by steps (`exists_path_of_mem_gather`), and it
gives up a node once it is gathered but follows every step of it (`gather_closed`).  Its nodes are
the positions of a scope, and a step leads from the last position of a name to the last position of
another (`mem_next_iff`).

`StateGraph.Path` is reachability inside a scope in terms of names: links between names of its
states, whatever they form, cycles included.  A position is *lost* when the name there stands again
further down, when the scope has no state of the start name, or when no path leads from the start to
the name.  The lost positions are those that the search does not visit (`lost_iff_not_mem_visited`),
so the analysis answers with the names there, in the order of their bytes (`unreachable_exact`).
-/

namespace Rollout

/-! ## Sorting -/

theorem insertText_eq (s : String) : ∀ texts : List String,
    insertText s texts = texts.orderedInsert (· ≤ ·) s
  | [] => rfl
  | t :: rest => by
      rw [insertText, List.orderedInsert_cons, insertText_eq s rest]
      by_cases h : t < s
      · rw [if_pos h, if_neg (not_le.mpr h)]
      · rw [if_neg h, if_pos (not_lt.mp h)]

theorem sortTexts_eq (texts : List String) : sortTexts texts = texts.insertionSort (· ≤ ·) := by
  induction texts with
  | nil => rfl
  | cons s rest ih => rw [sortTexts, insertText_eq, ih, List.insertionSort_cons]

theorem perm_sortTexts (texts : List String) : (sortTexts texts).Perm texts := by
  rw [sortTexts_eq]
  exact List.perm_insertionSort _ texts

/-- Sorted texts have their bytes in order. -/
theorem pairwise_sortTexts (texts : List String) :
    (sortTexts texts).Pairwise fun a b => ByteKey.ofText a ≤ ByteKey.ofText b := by
  rw [sortTexts_eq]
  exact (List.pairwise_insertionSort (· ≤ ·) texts).imp ByteKey.ofText_le_iff.mpr

/-! ## The search -/

section Gather

variable {ν : Type} [DecidableEq ν] {next : ν → List ν}

/-- A pending node that remains is gathered. -/
theorem mem_gather : ∀ {rounds : Nat} {remaining pending : List ν} {node : ν},
    remaining.length ≤ rounds → node ∈ pending → node ∈ remaining →
    node ∈ gather next rounds remaining pending
  | 0, _, _, _, hlen, _, hmem => by
      rw [List.length_eq_zero_iff.mp (Nat.le_zero.mp hlen)] at hmem
      cases hmem
  | rounds + 1, remaining, pending, node, hlen, hpending, hmem => by
      rw [gather]
      split
      · rename_i hnone
        have := List.find?_eq_none.mp hnone node hpending
        exact absurd (List.contains_iff_mem.mpr hmem) this
      · rename_i found hsome
        have hfound : found ∈ remaining := List.contains_iff_mem.mp (List.find?_some hsome)
        by_cases heq : node = found
        · exact heq ▸ List.mem_cons_self
        · refine List.mem_cons_of_mem _ (mem_gather ?_ (List.mem_append_right _ hpending)
            ((List.mem_erase_of_ne heq).mpr hmem))
          have := List.length_erase_of_mem hfound
          omega

/-- Whatever a gathered node leads to is gathered, if it remains. -/
theorem gather_closed : ∀ {rounds : Nat} {remaining pending : List ν} {node target : ν},
    remaining.length ≤ rounds → node ∈ gather next rounds remaining pending →
    target ∈ next node → target ∈ remaining → target ∈ gather next rounds remaining pending
  | 0, _, _, _, _, _, hnode, _, _ => by
      rw [gather] at hnode
      cases hnode
  | rounds + 1, remaining, pending, node, target, hlen, hnode, htarget, hmem => by
      rw [gather] at hnode ⊢
      split at hnode
      · cases hnode
      · rename_i found hsome
        have hfound : found ∈ remaining := List.contains_iff_mem.mp (List.find?_some hsome)
        have hlen' : (remaining.erase found).length ≤ rounds := by
          have := List.length_erase_of_mem hfound
          omega
        by_cases heq : target = found
        · exact heq ▸ List.mem_cons_self
        · have hmem' := (List.mem_erase_of_ne heq).mpr hmem
          rcases List.mem_cons.mp hnode with rfl | hrest
          · exact List.mem_cons_of_mem _
              (mem_gather hlen' (List.mem_append_left _ htarget) hmem')
          · exact List.mem_cons_of_mem _ (gather_closed hlen' hrest htarget hmem')

/-- A gathered node is come to from a pending one. -/
theorem exists_path_of_mem_gather :
    ∀ {rounds : Nat} {remaining pending : List ν} {node : ν},
      node ∈ gather next rounds remaining pending →
        ∃ source ∈ pending, Relation.ReflTransGen (fun n m => m ∈ next n) source node
  | 0, _, _, _, h => absurd h List.not_mem_nil
  | rounds + 1, remaining, pending, node, h => by
      rw [gather] at h
      split at h
      · cases h
      · rename_i found hsome
        have hpending : found ∈ pending := List.mem_of_find?_eq_some hsome
        rcases List.mem_cons.mp h with rfl | hrest
        · exact ⟨node, hpending, .refl⟩
        · obtain ⟨source, hsource, hpath⟩ := exists_path_of_mem_gather hrest
          rcases List.mem_append.mp hsource with hnext | hold
          · exact ⟨found, hpending, .head hnext hpath⟩
          · exact ⟨source, hold, hpath⟩

end Gather

/-- Among all positions the search gathers those that can be come to from a pending one. -/
theorem mem_gather_finRange {n : Nat} {next : Fin n → List (Fin n)} {pending : List (Fin n)}
    {node : Fin n} :
    node ∈ gather next n (List.finRange n) pending ↔
      ∃ source ∈ pending, Relation.ReflTransGen (fun i j => j ∈ next i) source node := by
  refine ⟨exists_path_of_mem_gather, ?_⟩
  rintro ⟨source, hsource, hpath⟩
  have hrounds : (List.finRange n).length ≤ n := Nat.le_of_eq List.length_finRange
  induction hpath with
  | refl => exact mem_gather hrounds hsource (List.mem_finRange source)
  | tail _ hstep ih => exact gather_closed hrounds ih hstep (List.mem_finRange _)

/-! ## The positions of names -/

/-- The position stands for the name: it is the last of the name. -/
def Stands (names : List String) (name : String) (i : Fin names.length) : Prop :=
  names.get i = name ∧ ∀ j, i < j → names.get j ≠ name

theorem Stands.unique {names : List String} {name : String} {i j : Fin names.length}
    (hi : Stands names name i) (hj : Stands names name j) : i = j := by
  rcases lt_trichotomy i j with h | h | h
  · exact absurd hj.1 (hi.2 j h)
  · exact h
  · exact absurd hi.1 (hj.2 i h)

theorem stands_zero {name : String} {rest : List String} (h : name ∉ rest) :
    Stands (name :: rest) name ⟨0, Nat.succ_pos rest.length⟩ := by
  refine ⟨rfl, fun j hj heq => ?_⟩
  obtain ⟨k, rfl⟩ := Fin.exists_succ_eq.mpr (Fin.pos_iff_ne_zero.mp hj)
  exact h (heq ▸ List.get_mem rest k)

theorem Stands.succ {name other : String} {rest : List String} {i : Fin rest.length}
    (h : Stands rest name i) : Stands (other :: rest) name i.succ := by
  refine ⟨h.1, fun j hj => ?_⟩
  obtain ⟨k, rfl⟩ := Fin.exists_succ_eq.mpr (Fin.ne_zero_of_lt hj)
  exact h.2 k (Fin.succ_lt_succ_iff.mp hj)

/-- A name has no position, or its last one is found. -/
theorem lastPosition?_cases (name : String) : ∀ names : List String,
    lastPosition? name names = none ∧ name ∉ names ∨
      ∃ i, lastPosition? name names = some i ∧ Stands names name i
  | [] => .inl ⟨rfl, List.not_mem_nil⟩
  | other :: rest => by
      rw [lastPosition?]
      rcases lastPosition?_cases name rest with ⟨hnone, hrest⟩ | ⟨i, hsome, hstands⟩
      · rw [hnone]
        by_cases h : other = name
        · subst h
          exact .inr ⟨_, if_pos rfl, stands_zero hrest⟩
        · exact .inl ⟨if_neg h, List.not_mem_cons_of_ne_of_not_mem (Ne.symm h) hrest⟩
      · rw [hsome]
        exact .inr ⟨i.succ, rfl, hstands.succ⟩

theorem lastPosition?_eq_some_iff {names : List String} {name : String} {i : Fin names.length} :
    lastPosition? name names = some i ↔ Stands names name i := by
  rcases lastPosition?_cases name names with ⟨hnone, hno⟩ | ⟨j, hsome, hstands⟩
  · rw [hnone]
    exact ⟨nofun, fun h => absurd (h.1 ▸ List.get_mem names i) hno⟩
  · rw [hsome, Option.some_inj]
    exact ⟨fun h => h ▸ hstands, hstands.unique⟩

theorem exists_stands {names : List String} {name : String} (h : name ∈ names) :
    ∃ i, Stands names name i := by
  rcases lastPosition?_cases name names with ⟨-, hno⟩ | ⟨i, -, hstands⟩
  · exact absurd h hno
  · exact ⟨i, hstands⟩

namespace StateGraph

variable {g : StateGraph}

/-! ## Paths -/

/-- Names that control can come to from the start of a scope. -/
inductive Reaches (g : StateGraph) : String → Prop where
  | start : Reaches g g.startAt
  | step {s : State} {target : String} : Reaches g s.name → s ∈ g.states → target ∈ s.targets →
    Reaches g target

/-- Control can come from the first name to the second along links to names of the scope. -/
def Path (g : StateGraph) : String → String → Prop :=
  Relation.ReflTransGen fun n m => g.Link n m ∧ m ∈ g.names

theorem Link.source_mem {source target : String} (h : g.Link source target) : source ∈ g.names := by
  obtain ⟨s, hs, rfl, _⟩ := h
  exact List.mem_map_of_mem hs

/-- To a name of the scope control comes along names of the scope. -/
theorem Reaches.path {name : String} (h : g.Reaches name) (hname : name ∈ g.names) :
    g.Path g.startAt name := by
  induction h with
  | start => exact .refl
  | @step s target _ hs htarget ih =>
    exact (ih (List.mem_map_of_mem hs)).tail ⟨⟨s, hs, rfl, htarget⟩, hname⟩

/-! ## Visits -/

/-- An edge leads from the position that stands for a name to the one that stands for a target. -/
theorem mem_next_iff {i j : Fin g.names.length} :
    j ∈ g.scopeGraph.next i ↔
      ∃ n m, Stands g.names n i ∧ Stands g.names m j ∧ g.Link n m := by
  simp only [ScopeGraph.next, scopeGraph, List.mem_filterMap, List.mem_flatMap,
    Option.bind_eq_bind, Option.pure_def, Option.bind_eq_some_iff, Option.some_inj,
    Option.ite_none_right_eq_some, lastPosition?_eq_some_iff]
  constructor
  · rintro ⟨_, ⟨s, hs, target, htarget, source, hsource, i, hi, rfl⟩, rfl, rfl⟩
    exact ⟨s.name, target, hsource, hi, s, hs, rfl, htarget⟩
  · rintro ⟨_, target, hi, hj, s, hs, rfl, htarget⟩
    exact ⟨(i, j), ⟨s, hs, target, htarget, i, hi, j, hj, rfl⟩, rfl, rfl⟩

theorem path_of_edges {start i : Fin g.names.length} (hstart : Stands g.names g.startAt start)
    (h : Relation.ReflTransGen (fun i j => j ∈ g.scopeGraph.next i) start i) :
    Stands g.names (g.names.get i) i ∧ g.Path g.startAt (g.names.get i) := by
  induction h with
  | refl => exact ⟨hstart.1.symm ▸ hstart, hstart.1.symm ▸ .refl⟩
  | @tail b c _ hedge ih =>
    obtain ⟨n, m, hn, hm, hlink⟩ := mem_next_iff.mp hedge
    obtain rfl := hn.1
    obtain rfl := hm.1
    exact ⟨hm, ih.2.tail ⟨hlink, List.get_mem _ c⟩⟩

theorem edges_of_path {start : Fin g.names.length} (hstart : Stands g.names g.startAt start)
    {name : String} (h : g.Path g.startAt name) : ∀ i, Stands g.names name i →
      Relation.ReflTransGen (fun i j => j ∈ g.scopeGraph.next i) start i := by
  induction h with
  | refl =>
    intro i hi
    rw [hstart.unique hi]
  | @tail n m _ hstep ih =>
    intro i hi
    obtain ⟨k, hk⟩ := exists_stands hstep.1.source_mem
    exact (ih k hk).tail (mem_next_iff.mpr ⟨n, m, hk, hi, hstep.1⟩)

/-- Edges lead to a visited position from the one that stands for the start. -/
theorem mem_visited_iff {i : Fin g.names.length} :
    i ∈ g.scopeGraph.visited ↔ ∃ start, Stands g.names g.startAt start ∧
      Relation.ReflTransGen (fun i j => j ∈ g.scopeGraph.next i) start i := by
  rw [ScopeGraph.visited, mem_gather_finRange]
  simp only [Option.mem_toList, scopeGraph, lastPosition?_eq_some_iff]

/-- A position is lost if its name stands again further down, if the scope has no start, or if no
path leads from the start to the name. -/
def Lost (g : StateGraph) (i : Fin g.names.length) : Prop :=
  (∃ j, i < j ∧ g.names.get j = g.names.get i) ∨ g.startAt ∉ g.names ∨
    ¬ g.Path g.startAt (g.names.get i)

/-- The lost positions are those that the search does not visit. -/
theorem lost_iff_not_mem_visited {i : Fin g.names.length} :
    g.Lost i ↔ i ∉ g.scopeGraph.visited := by
  rw [mem_visited_iff]
  constructor
  · rintro hlost ⟨start, hstart, hedges⟩
    obtain ⟨hstands, hpath⟩ := path_of_edges hstart hedges
    rcases hlost with ⟨j, hj, heq⟩ | hmissing | hnone
    · exact hstands.2 j hj heq
    · exact hmissing (hstart.1 ▸ List.get_mem _ start)
    · exact hnone hpath
  · intro h
    by_contra hlost
    obtain ⟨hlast, hstart, hpath⟩ := not_or.mp hlost |>.imp_right not_or.mp
    obtain ⟨start, hstands⟩ := exists_stands (not_not.mp hstart)
    have hi : Stands g.names (g.names.get i) i := ⟨rfl, fun j hj heq => hlast ⟨j, hj, heq⟩⟩
    exact h ⟨start, hstands, edges_of_path hstands (not_not.mp hpath) i hi⟩

instance : DecidablePred g.Lost := fun _ => decidable_of_iff _ lost_iff_not_mem_visited.symm

/-! ## The analysis -/

theorem perm_unreachable (g : StateGraph) :
    g.unreachable.Perm
      (((List.finRange g.names.length).filter fun i => g.Lost i).map g.names.get) := by
  have hlost : (fun i => !g.scopeGraph.visited.contains i) = fun i => decide (g.Lost i) :=
    funext fun i => by
      rw [List.contains_eq_mem, ← decide_not]
      exact decide_eq_decide.mpr lost_iff_not_mem_visited.symm
  rw [unreachable, ← hlost]
  exact perm_sortTexts _

theorem unreachable_eq_nil_iff_not_lost : g.unreachable = [] ↔ ∀ i, ¬ g.Lost i := by
  rw [← List.length_eq_zero_iff, (perm_unreachable g).length_eq, List.length_map,
    List.length_eq_zero_iff, List.filter_eq_nil_iff]
  simp only [List.mem_finRange, decide_eq_true_eq, true_implies]

/-- Nothing is lost in a scope that has its start, if it has any state, whose names differ, and
where a path leads to every state. -/
theorem unreachable_eq_nil_iff : g.unreachable = [] ↔
    (g.states ≠ [] → g.startAt ∈ g.names) ∧ g.names.Nodup ∧
      ∀ s ∈ g.states, g.Path g.startAt s.name := by
  rw [unreachable_eq_nil_iff_not_lost]
  constructor
  · intro hkept
    have hpaths : ∀ name ∈ g.names, g.startAt ∈ g.names ∧ g.Path g.startAt name := by
      intro name hname
      obtain ⟨i, rfl⟩ := List.mem_iff_get.mp hname
      exact ⟨by_contra fun hmissing => hkept i (.inr (.inl hmissing)),
        by_contra fun hnone => hkept i (.inr (.inr hnone))⟩
    refine ⟨fun hne => ?_, ?_, fun s hs => (hpaths _ (List.mem_map_of_mem hs)).2⟩
    · obtain ⟨s, hs⟩ := List.exists_mem_of_ne_nil _ hne
      exact (hpaths _ (List.mem_map_of_mem hs)).1
    · refine List.nodup_iff_pairwise_ne.mpr (List.pairwise_iff_get.mpr fun i j hij heq => ?_)
      exact hkept i (.inl ⟨j, hij, heq.symm⟩)
  · rintro ⟨hstart, hnd, hpaths⟩ i hlost
    obtain ⟨s, hs, hname⟩ := List.mem_map.mp (List.get_mem g.names i)
    rcases hlost with ⟨j, hj, heq⟩ | hmissing | hnone
    · exact hj.ne' (hnd.injective_get heq)
    · exact hmissing (hstart (List.ne_nil_of_mem hs))
    · exact hnone (hname ▸ hpaths s hs)

/-- The analysis is exact on every graph. It answers with the names at the lost positions of the
scope, sorted by bytes; and over all scopes it has no answer just if each of them has its start,
names that differ, and a path to every state. -/
theorem unreachable_exact (g : StateGraph) :
    g.unreachable.Perm (((List.finRange g.names.length).filter fun i => g.Lost i).map g.names.get) ∧
      (g.unreachable.Pairwise fun a b => ByteKey.ofText a ≤ ByteKey.ofText b) ∧
      (g.unreachableStates = [] ↔ ∀ scope ∈ g.scopes,
        (scope.states ≠ [] → scope.startAt ∈ scope.names) ∧ scope.names.Nodup ∧
          ∀ s ∈ scope.states, scope.Path scope.startAt s.name) := by
  refine ⟨perm_unreachable g, pairwise_sortTexts _, ?_⟩
  rw [unreachableStates_eq, List.flatMap_eq_nil_iff]
  exact forall₂_congr fun scope _ => unreachable_eq_nil_iff

/-- Two states on a cycle, one of them twice, a state with a link to itself and to an unknown name,
and a branch without its start. -/
example : unreachableStates ⟨"A", [
      .task "A" [] (some (.next "B")),
      .task "B" [] none,
      .choice "Z" [⟨[], "Z"⟩] "Nowhere" none,
      .parallel "B" [⟨"Start", [.pass "P" none]⟩] [] (some (.next "A"))]⟩ = ["B", "Z", "P"] := by
  decide

end StateGraph

end Rollout
