import Rollout.Graph.Document
import Rollout.Proofs.Json.RoundTrip

/-!
# The two renderings of a graph

A graph is rendered as a text, in which the states stand in compile order and keys may repeat, and as
a value, in which they are sorted and each has its last member.  The text is read back as the value
(`StateGraph.renderings_agree`).  Nothing is asked of the names in the graph: states may share them, and
a field may stand under a key that the rendering writes as well.

What the rendering adds to the free-form parts of a graph are texts, flags and containers, so its
numbers are those of the free-form parts (`State.noDoubles_document`).
-/

namespace Rollout

open Json

namespace State

mutual

/-- The values of the fields and conditions of a state, those inside its branches included. -/
def freeForm : State → List Json
  | .task _ fields _ => fields.map Prod.snd
  | .choice _ rules _ _ => rules.flatMap fun r => r.condition.map Prod.snd
  | .parallel _ branches fields _ => fields.map Prod.snd ++ freeFormOfBranches branches
  | .merge .. => []
  | .pass .. => []

/-- The values of the fields and conditions of the states. -/
def freeFormOfStates : List State → List Json
  | [] => []
  | s :: rest => s.freeForm ++ freeFormOfStates rest

/-- The values of the fields and conditions of a scope. -/
def freeFormOfScope : Scope State → List Json
  | ⟨_, states⟩ => freeFormOfStates states

/-- The values of the fields and conditions of the branches. -/
def freeFormOfBranches : List (Scope State) → List Json
  | [] => []
  | branch :: rest => freeFormOfScope branch ++ freeFormOfBranches rest

end

/-! ## Numbers of a rendering -/

theorem noDoubles_transition (t : Option Transition) :
    ∀ m ∈ Transition.members t, m.2.NoDoubles := by
  rcases t with _ | _ | _ <;> simp [Transition.members]

theorem noDoubles_rule {r : Rule} (h : ∀ j ∈ r.condition.map Prod.snd, j.NoDoubles) :
    r.document.NoDoubles := by
  rw [Rule.document, noDoubles_object]
  intro m hm
  rcases List.mem_append.mp hm with hm | hm
  · exact h m.2 (List.mem_map_of_mem (List.mem_filter.mp hm).1)
  · rw [List.mem_singleton.mp hm]
    exact noDoubles_string r.next

mutual

theorem noDoubles_document : ∀ {s : State}, (∀ j ∈ s.freeForm, j.NoDoubles) →
    s.document.NoDoubles
  | .task _ fields t, h => by
      rw [document, noDoubles_object]
      intro m hm
      rcases List.mem_append.mp hm with hm | hm
      · exact h m.2 (List.mem_map_of_mem hm)
      · exact noDoubles_transition t m hm
  | .choice _ rules default t, h => by
      have hrules : ∀ j ∈ rules.map Rule.document, j.NoDoubles := by
        intro j hj
        obtain ⟨r, hr, rfl⟩ := List.mem_map.mp hj
        exact noDoubles_rule fun j hj => h j (List.mem_flatMap.mpr ⟨r, hr, hj⟩)
      rw [document, noDoubles_object]
      intro m hm
      rcases List.mem_append.mp hm with hm | hm
      · simp only [List.mem_cons, List.not_mem_nil, or_false] at hm
        rcases hm with rfl | rfl | rfl
        · exact noDoubles_string "Choice"
        · exact (noDoubles_array _).mpr hrules
        · exact noDoubles_string default
      · exact noDoubles_transition t m hm
  | .parallel _ branches fields t, h => by
      have hbranches := noDoubles_branches fun j hj => h j (List.mem_append_right _ hj)
      rw [document, noDoubles_object]
      intro m hm
      rcases List.mem_cons.mp hm with rfl | hm
      · exact noDoubles_string "Parallel"
      · rcases List.mem_append.mp hm with hm | hm
        · exact h m.2 (List.mem_append_left _ (List.mem_map_of_mem hm))
        · rcases List.mem_cons.mp hm with rfl | hm
          · exact (noDoubles_array _).mpr hbranches
          · exact noDoubles_transition t m hm
  | .merge _ type t, _ => by
      rw [document, noDoubles_object]
      exact List.forall_mem_cons.mpr ⟨noDoubles_string type, noDoubles_transition t⟩
  | .pass _ t, _ => by
      rw [document, noDoubles_object]
      exact List.forall_mem_cons.mpr ⟨noDoubles_string "Pass", noDoubles_transition t⟩

theorem noDoubles_stateMembers : ∀ {states : List State},
    (∀ j ∈ freeFormOfStates states, j.NoDoubles) → ∀ m ∈ stateMembers states, m.2.NoDoubles
  | [], _ => List.forall_mem_nil _
  | _ :: _, h =>
      List.forall_mem_cons.mpr
        ⟨noDoubles_document fun j hj => h j (List.mem_append_left _ hj),
          noDoubles_stateMembers fun j hj => h j (List.mem_append_right _ hj)⟩

theorem noDoubles_scopeDocument : ∀ {scope : Scope State},
    (∀ j ∈ freeFormOfScope scope, j.NoDoubles) → (scopeDocument scope).NoDoubles
  | ⟨startAt, _⟩, h => by
      have hstates := (noDoubles_object _).mpr (noDoubles_stateMembers h)
      rw [scopeDocument, noDoubles_object]
      exact List.forall_mem_cons.mpr
        ⟨noDoubles_string startAt, List.forall_mem_singleton.mpr hstates⟩

theorem noDoubles_branches : ∀ {branches : List (Scope State)},
    (∀ j ∈ freeFormOfBranches branches, j.NoDoubles) →
      ∀ j ∈ branchDocuments branches, j.NoDoubles
  | [], _ => List.forall_mem_nil _
  | _ :: _, h =>
      List.forall_mem_cons.mpr
        ⟨noDoubles_scopeDocument fun j hj => h j (List.mem_append_left _ hj),
          noDoubles_branches fun j hj => h j (List.mem_append_right _ hj)⟩

end

end State

namespace StateGraph

/-! ## The renderings -/

/-- The text of a graph is read back as its value. -/
theorem renderings_agree {g : StateGraph} (hfields : ∀ j ∈ State.freeFormOfScope g, j.NoDoubles)
    (hdepth : g.document.depth ≤ 127) : Json.ofText g.pretty = .ok g.toJson :=
  Json.ofText_pretty (State.noDoubles_scopeDocument hfields) hdepth

/-- A graph with two states of one name, fields under keys that the rendering writes, a rule with a
target in its condition, and an empty branch. -/
def tangled : StateGraph where
  startAt := "Gone"
  states := [
    .parallel "Both" [⟨"", []⟩, ⟨"Inner", [.pass "Inner" none]⟩]
      [("Branches", .null), ("Type", .string "Map")] (some .stop),
    .choice "Pick" [⟨[("Next", .null), ("IsNull", .bool true)], "Both"⟩] "Pick" none,
    .task "Both" [("End", .number (.ofUInt64 3)), ("Type", .string "\"\n")] (some .stop)]

theorem renderings_agree_tangled :
    Json.ofText tangled.pretty = .ok (.object [
      ("StartAt", .string "Gone"),
      ("States", .object [
        ("Both", .object [("End", .bool true), ("Type", .string "\"\n")]),
        ("Pick", .object [
          ("Choices", .array [.object [("IsNull", .bool true), ("Next", .string "Both")]]),
          ("Default", .string "Pick"),
          ("Type", .string "Choice")])])]) := by
  have hfields : ∀ j ∈ State.freeFormOfScope tangled, j.NoDoubles := by
    simp [tangled, State.freeFormOfScope, State.freeFormOfStates, State.freeFormOfBranches,
      State.freeForm, Number.ofUInt64]
  have hdepth : tangled.document.depth ≤ 127 := by decide +kernel
  rw [renderings_agree hfields hdepth]
  decide +kernel

end StateGraph

end Rollout
