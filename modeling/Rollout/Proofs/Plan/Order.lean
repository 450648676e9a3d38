import Mathlib.Data.List.Nodup
import Mathlib.Logic.Relation
import Rollout.Proofs.Plan.Links

/-!
# The order of compiled states

A compiled scope can be read from the top to the bottom.  `StateGraph.WellLinked` says what that
means: the scope starts at its first state, every target is the name of a later state, every state
can be reached, and a state has the links of its kind.  Names differ, so a name tells a position and
links climb in it; hence no path of links comes back to a name (`WellLinked.acyclic`).

The layout of steps without faults is such a scope (`Step.layoutScope_wellLinked`), and so is the
layout of each of its branches.  As compilation gives the layout, every scope that it gives is well
linked, and its checks have nothing to refuse (`Plan.link_wellLinked`).
-/

namespace Rollout

/-! ## Scopes in order -/

/-- A choice goes on by one rule and its default and by nothing else, any other state by its
transition. -/
def State.Settled : State → Prop
  | .choice _ rules _ t => t = none ∧ ∃ rule, rules = [rule]
  | s => s.transition?.isSome = true

namespace StateGraph

/-- A scope whose links lead down its list of states. -/
structure WellLinked (g : StateGraph) : Prop where
  /-- The start is the name of the first state. -/
  start : g.names.head? = some g.startAt
  /-- No two states share a name. -/
  distinct : g.names.Nodup
  /-- What a state leads to has its name further down. -/
  onward : ∀ (i : Nat) (s : State), g.states[i]? = some s → ∀ target ∈ s.targets,
    ∃ j, i < j ∧ g.names[j]? = some target
  reaches : ∀ s ∈ g.states, g.Reaches s.name
  settled : ∀ s ∈ g.states, s.Settled

namespace WellLinked

variable {g : StateGraph}

/-- Names that differ stand at one position each. -/
theorem position_unique (h : g.WellLinked) {i j : Nat} {name : String}
    (hi : g.names[i]? = some name) (hj : g.names[j]? = some name) : i = j := by
  obtain ⟨hilen, hi⟩ := List.getElem?_eq_some_iff.mp hi
  obtain ⟨hjlen, hj⟩ := List.getElem?_eq_some_iff.mp hj
  exact (List.Nodup.getElem_inj_iff h.distinct).mp (hi.trans hj.symm)

theorem position_of_link (h : g.WellLinked) {source target : String} (hlink : g.Link source target)
    {i : Nat} (hi : g.names[i]? = some source) : ∃ j, i < j ∧ g.names[j]? = some target := by
  obtain ⟨s, hs, rfl, htarget⟩ := hlink
  obtain ⟨k, hk⟩ := List.mem_iff_getElem?.mp hs
  have hname : g.names[k]? = some s.name := by
    rw [names, List.getElem?_map, hk, Option.map_some]
  obtain rfl := h.position_unique hi hname
  exact h.onward i s hk target htarget

/-- Along a path of links the position climbs. -/
theorem position_of_path (h : g.WellLinked) {source target : String}
    (hpath : Relation.TransGen g.Link source target) {i : Nat} (hi : g.names[i]? = some source) :
    ∃ j, i < j ∧ g.names[j]? = some target := by
  induction hpath with
  | single hlink => exact h.position_of_link hlink hi
  | tail _ hlink ih =>
    obtain ⟨j, hij, hj⟩ := ih
    obtain ⟨k, hjk, hk⟩ := h.position_of_link hlink hj
    exact ⟨k, Nat.lt_trans hij hjk, hk⟩

/-- No path of links comes back to where it began. -/
theorem acyclic (h : g.WellLinked) (name : String) : ¬ Relation.TransGen g.Link name name := by
  intro hpath
  obtain ⟨next, ⟨s, hs, rfl, _⟩, _⟩ := Relation.TransGen.head'_iff.mp hpath
  obtain ⟨i, hi⟩ := List.mem_iff_getElem?.mp (List.mem_map_of_mem (f := State.name) hs)
  obtain ⟨j, hij, hj⟩ := h.position_of_path hpath hi
  exact Nat.ne_of_lt hij (h.position_unique hi hj)

end WellLinked

end StateGraph

/-- In a list that leads on without an exit, targets are found further down. -/
theorem State.Forward.onward {states : List State} (h : State.Forward none states) :
    ∀ (i : Nat) (s : State), states[i]? = some s → ∀ target ∈ s.targets,
      ∃ j, i < j ∧ (states.map State.name)[j]? = some target := by
  induction states with
  | nil => intro i s hs; cases hs
  | cons first rest ih =>
    intro i s hs target htarget
    cases i with
    | zero =>
      obtain rfl : first = s := Option.some.inj hs
      rcases h.1 target htarget with hrest | hout
      · obtain ⟨j, hj⟩ := List.mem_iff_getElem?.mp hrest
        exact ⟨j + 1, Nat.succ_pos j, hj⟩
      · cases hout
    | succ i =>
      obtain ⟨j, hij, hj⟩ := ih h.2 i s hs target htarget
      exact ⟨j + 1, Nat.succ_lt_succ hij, hj⟩

/-! ## Layouts in order -/

namespace Step

variable {mergeType : String}

theorem joined_settled (name : String) (scopes : List (Scope State)) (fields : List (String × Json))
    (successor : Option Step) : ∀ s ∈ joined mergeType name scopes fields successor, s.Settled := by
  intro s hs
  rw [joined] at hs
  split at hs
  · rw [List.mem_singleton.mp hs]
    rfl
  · rcases List.mem_cons.mp hs with rfl | hs
    · rfl
    · rw [List.mem_singleton.mp hs]
      rfl

mutual

theorem layout_settled : ∀ (successor : Option Step) (step : Step),
    ∀ s ∈ layout mergeType successor step, s.Settled
  | _, .task _ _, s, hs => by
      rw [layout] at hs
      rw [List.mem_singleton.mp hs]
      rfl
  | successor, .choice name condition whenTrue whenFalse, s, hs => by
      rw [layout] at hs
      rcases List.mem_cons.mp hs with rfl | hs
      · exact ⟨rfl, _, rfl⟩
      · rcases List.mem_append.mp hs with hs | hs
        · exact layoutList_settled successor whenTrue s hs
        · exact layoutElse_settled successor name whenFalse s hs
  | successor, .parallel name branches fields, s, hs => by
      rw [layout] at hs
      exact joined_settled name _ fields successor s hs

theorem layoutList_settled : ∀ (successor : Option Step) (steps : List Step),
    ∀ s ∈ layoutList mergeType successor steps, s.Settled
  | _, [], s, hs => absurd hs List.not_mem_nil
  | successor, step :: rest, s, hs => by
      rw [layoutList] at hs
      rcases List.mem_append.mp hs with hs | hs
      · exact layout_settled _ step s hs
      · exact layoutList_settled successor rest s hs

theorem layoutElse_settled : ∀ (successor : Option Step) (name : String)
    (whenFalse : Option (List Step)), ∀ s ∈ layoutElse mergeType successor name whenFalse, s.Settled
  | successor, _, some steps, s, hs => layoutList_settled successor steps s hs
  | some _, _, none, s, hs => absurd hs List.not_mem_nil
  | none, _, none, s, hs => by
      rw [List.mem_singleton.mp hs]
      rfl

end

theorem layoutScope_start {steps : List Step} (hne : steps ≠ []) :
    (layoutScope mergeType steps).names.head? = some (layoutScope mergeType steps).startAt := by
  cases steps with
  | nil => exact absurd rfl hne
  | cons first rest =>
    obtain ⟨states, heq⟩ := layout_eq_cons mergeType (rest.head?.or none) first
    rw [StateGraph.names, layoutScope, layoutList, heq, List.cons_append, List.map_cons,
      List.head?_cons, Place.name_state, startName]

/-- The layout of steps without faults is well linked. -/
theorem layoutScope_wellLinked {steps : List Step} (hne : steps ≠ [])
    (h : Sound mergeType (placesInList none steps)) :
    (layoutScope mergeType steps).WellLinked where
  start := layoutScope_start hne
  distinct := layoutScope_names_nodup h
  onward := State.Forward.onward (layoutList_forward h.gaps)
  reaches := (layoutList_covered hne h.gaps (fun _ hs => hs) .start).states
  settled := layoutList_settled none steps

end Step

namespace Plan

/-- Wherever linking a plan succeeds, the graph and the graphs of its branches are well linked and
have no cycle.  So no plan at all is refused for a link that dangles or for a state that cannot be
reached. -/
theorem link_wellLinked (mergeType : String) (plan : Plan) :
    (∀ g, plan.link mergeType = .ok g → ∀ scope ∈ g.scopes,
        scope.WellLinked ∧ ∀ name, ¬ Relation.TransGen scope.Link name name) ∧
      (∀ state target, plan.compile mergeType ≠ .error (.danglingReference state target)) ∧
      ∀ name, plan.compile mergeType ≠ .error (.unreachableState name) := by
  rw [compile_eq_link]
  refine ⟨fun g hg scope hscope => ?_, fun state target he => ?_, fun name he => ?_⟩
  · obtain ⟨rfl, hgaps, hnames⟩ := link_ok hg
    obtain ⟨steps, hne, hsound, rfl⟩ :=
      Step.mem_scopes_layoutScope plan.nonempty ⟨hgaps, hnames⟩ scope hscope
    have hlinked := Step.layoutScope_wellLinked hne hsound
    exact ⟨hlinked, hlinked.acyclic⟩
  · nomatch link_error he
  · nomatch link_error he

/-- A parallel step whose second branch ends in a choice without a second list. -/
def forked : Plan where
  steps := [
    .task "A" [],
    .parallel "P" [[.task "B" []], [.choice "C" [] [.task "D" []] none]] []]
  nonempty := List.cons_ne_nil _ _

theorem link_forked :
    (forked.layout "Merge").scopes.map StateGraph.names =
        [["A", "P", "P-Merge"], ["B"], ["C", "D", "C-End"]] ∧
      forked.link "Merge" = .ok (forked.layout "Merge") ∧
      ∀ scope ∈ (forked.layout "Merge").scopes, scope.WellLinked := by
  have hlink : forked.link "Merge" = .ok (forked.layout "Merge") := by rfl
  refine ⟨by decide, hlink, fun scope hscope => ?_⟩
  exact ((link_wellLinked "Merge" forked).1 _ hlink scope hscope).1

end Plan

end Rollout
