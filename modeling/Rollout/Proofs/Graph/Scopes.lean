import Rollout.Graph.Links
import Rollout.Graph.Reachability

/-!
# The scopes of a graph

A graph is checked scope by scope.  `StateGraph.scopes` lists the graph itself and the branch graphs
at every depth, and both checks of a graph come down to questions about one scope at a time: nothing
dangles if every scope is closed (`danglingReferences_eq_nil`), and the unreachable states are those
of the scopes (`unreachableStates_eq`).

`State.Forward` says that control only ever moves on to later states of a list, or leaves the list
for an exit.  It survives appending, so it can be shown step by step, and a whole list that is
forward without an exit is closed.
-/

namespace Rollout

/-! ## Scopes -/

namespace State

mutual

/-- The graphs of the branches of a state, at every depth. -/
def scopesInside : State → List StateGraph
  | .parallel _ branches _ _ => scopesInBranches branches
  | _ => []

/-- The graphs inside the branches of states. -/
def scopesInStates : List State → List StateGraph
  | [] => []
  | s :: rest => s.scopesInside ++ scopesInStates rest

/-- A scope and the graphs inside it. -/
def scopesOf : Scope State → List StateGraph
  | ⟨startAt, states⟩ => ⟨startAt, states⟩ :: scopesInStates states

/-- The scopes of branches. -/
def scopesInBranches : List (Scope State) → List StateGraph
  | [] => []
  | branch :: rest => scopesOf branch ++ scopesInBranches rest

end

theorem scopesInStates_append (xs ys : List State) :
    scopesInStates (xs ++ ys) = scopesInStates xs ++ scopesInStates ys := by
  induction xs with
  | nil => rfl
  | cons s rest ih => simp [scopesInStates, ih]

theorem namesInStates_append (xs ys : List State) :
    namesInStates (xs ++ ys) = namesInStates xs ++ namesInStates ys := by
  induction xs with
  | nil => rfl
  | cons s rest ih => simp [namesInStates, ih]

/-- A state counts among the names of its own scope. -/
theorem map_name_sublist_namesInStates : ∀ states : List State,
    (states.map name).Sublist (namesInStates states)
  | [] => .slnil
  | s :: rest => by
      obtain ⟨inner, hinner⟩ : ∃ inner, s.allNames = s.name :: inner := by
        cases s <;> exact ⟨_, rfl⟩
      rw [List.map_cons, namesInStates, hinner]
      exact .cons_cons _ ((map_name_sublist_namesInStates rest).trans
        (List.sublist_append_right _ _))

end State

namespace StateGraph

/-- The graph and the graphs of its branches at every depth. -/
def scopes (g : StateGraph) : List StateGraph := State.scopesOf g

/-- A state of the first name leads to the second name. -/
def Link (g : StateGraph) (source target : String) : Prop :=
  ∃ s ∈ g.states, s.name = source ∧ target ∈ s.targets

/-- The start and every target of a scope are names of its states. -/
def Closed (g : StateGraph) : Prop :=
  g.startAt ∈ g.names ∧ ∀ s ∈ g.states, ∀ target ∈ s.targets, target ∈ g.names

end StateGraph

namespace State

theorem dangling_of_state (scope : List String) (s : State) :
    (s.targets.filter fun target => !scope.contains target).map (fun target => (s.name, target))
        = [] ↔ ∀ target ∈ s.targets, target ∈ scope := by
  simp

mutual

theorem danglingInside_eq_nil : ∀ {s : State}, (∀ g ∈ s.scopesInside, g.Closed) →
    s.danglingInside = []
  | .task .., _ => rfl
  | .choice .., _ => rfl
  | .merge .., _ => rfl
  | .pass .., _ => rfl
  | .parallel _ branches _ _, h => by
      rw [scopesInside] at h
      rw [danglingInside]
      exact danglingInBranches_eq_nil h

theorem danglingInStates_eq_nil {scope : List String} : ∀ {states : List State},
    (∀ s ∈ states, ∀ target ∈ s.targets, target ∈ scope) →
    (∀ g ∈ scopesInStates states, g.Closed) → danglingInStates scope states = []
  | [], _, _ => rfl
  | s :: rest, htargets, h => by
      rw [scopesInStates] at h
      rw [danglingInStates, (dangling_of_state scope s).mpr (htargets s List.mem_cons_self),
        danglingInside_eq_nil fun g hg => h g (List.mem_append_left _ hg),
        danglingInStates_eq_nil (fun t ht => htargets t (List.mem_cons_of_mem _ ht))
          fun g hg => h g (List.mem_append_right _ hg)]
      rfl

theorem danglingInScope_eq_nil : ∀ {g : Scope State}, (∀ g' ∈ scopesOf g, g'.Closed) →
    danglingInScope g = []
  | ⟨startAt, states⟩, h => by
      rw [scopesOf] at h
      have hclosed : StateGraph.Closed ⟨startAt, states⟩ := h _ List.mem_cons_self
      have hstart : (states.map name).contains startAt = true :=
        List.contains_iff_mem.mpr hclosed.1
      simp only [danglingInScope, hstart, if_true, List.nil_append]
      exact danglingInStates_eq_nil hclosed.2 fun g hg => h g (List.mem_cons_of_mem _ hg)

theorem danglingInBranches_eq_nil : ∀ {branches : List (Scope State)},
    (∀ g ∈ scopesInBranches branches, g.Closed) → danglingInBranches branches = []
  | [], _ => rfl
  | branch :: rest, h => by
      rw [scopesInBranches] at h
      rw [danglingInBranches,
        danglingInScope_eq_nil fun g hg => h g (List.mem_append_left _ hg),
        danglingInBranches_eq_nil fun g hg => h g (List.mem_append_right _ hg)]
      rfl

end

mutual

theorem unreachableInside_eq : ∀ s : State,
    s.unreachableInside = s.scopesInside.flatMap StateGraph.unreachable
  | .task .. => rfl
  | .choice .. => rfl
  | .merge .. => rfl
  | .pass .. => rfl
  | .parallel _ branches _ _ => by
      rw [unreachableInside, scopesInside]
      exact unreachableInBranches_eq branches

theorem unreachableInStates_eq : ∀ states : List State,
    unreachableInStates states = (scopesInStates states).flatMap StateGraph.unreachable
  | [] => rfl
  | s :: rest => by
      rw [unreachableInStates, scopesInStates, List.flatMap_append, unreachableInside_eq s,
        unreachableInStates_eq rest]

theorem unreachableInScope_eq : ∀ g : Scope State,
    unreachableInScope g = (scopesOf g).flatMap StateGraph.unreachable
  | ⟨_, states⟩ => by
      rw [unreachableInScope, scopesOf, List.flatMap_cons, unreachableInStates_eq states]

theorem unreachableInBranches_eq : ∀ branches : List (Scope State),
    unreachableInBranches branches = (scopesInBranches branches).flatMap StateGraph.unreachable
  | [] => rfl
  | branch :: rest => by
      rw [unreachableInBranches, scopesInBranches, List.flatMap_append,
        unreachableInScope_eq branch, unreachableInBranches_eq rest]

end

end State

namespace StateGraph

/-- Where names differ, every state is the one that its name finds. -/
theorem get?_of_mem {g : StateGraph} (hnd : g.names.Nodup) {s : State} (hs : s ∈ g.states) :
    g.get? s.name = some s := by
  obtain ⟨startAt, states⟩ := g
  change states.find? (fun s' => s'.name == s.name) = some s
  change (states.map State.name).Nodup at hnd
  change s ∈ states at hs
  induction states with
  | nil => cases hs
  | cons first rest ih =>
    rw [List.map_cons, List.nodup_cons] at hnd
    rcases List.mem_cons.mp hs with rfl | hrest
    · simp
    · have hne : first.name ≠ s.name := fun h => hnd.1 (h ▸ List.mem_map_of_mem hrest)
      rw [List.find?_cons_of_neg (by simpa using hne)]
      exact ih hnd.2 hrest

/-- Nothing dangles if the start and the targets of every scope are names of that scope. -/
theorem danglingReferences_eq_nil {g : StateGraph} (h : ∀ s ∈ g.scopes, s.Closed) :
    g.danglingReferences = [] :=
  State.danglingInScope_eq_nil h

/-- The unreachable states of a graph are those of its scopes. -/
theorem unreachableStates_eq (g : StateGraph) :
    g.unreachableStates = g.scopes.flatMap unreachable :=
  State.unreachableInScope_eq g

end StateGraph

/-! ## Links that lead on -/

namespace State

/-- Every target of a state is the name of a later state, or the exit. -/
def Forward (exit : Option String) : List State → Prop
  | [] => True
  | s :: rest =>
    (∀ target ∈ s.targets, target ∈ rest.map name ∨ exit = some target) ∧ Forward exit rest

namespace Forward

variable {exit exit' : Option String} {xs ys : List State}

/-- What leaves the first list has to arrive in the second or to leave it as well. -/
theorem append (hx : Forward exit xs) (hy : Forward exit' ys)
    (hexit : ∀ target, exit = some target → target ∈ ys.map name ∨ exit' = some target) :
    Forward exit' (xs ++ ys) := by
  induction xs with
  | nil => exact hy
  | cons s rest ih =>
    refine ⟨fun target htarget => ?_, ih hx.2⟩
    change target ∈ (rest ++ ys).map name ∨ exit' = some target
    rw [List.map_append, List.mem_append]
    rcases hx.1 target htarget with hrest | hout
    · exact .inl (.inl hrest)
    · rcases hexit target hout with hin | hout'
      · exact .inl (.inr hin)
      · exact .inr hout'

theorem mem_names (h : Forward none xs) :
    ∀ s ∈ xs, ∀ target ∈ s.targets, target ∈ xs.map name := by
  induction xs with
  | nil => intro s hs; cases hs
  | cons s rest ih =>
    intro s' hs' target htarget
    rw [List.map_cons]
    rcases List.mem_cons.mp hs' with rfl | hrest
    · rcases h.1 target htarget with hin | hout
      · exact List.mem_cons_of_mem _ hin
      · cases hout
    · exact List.mem_cons_of_mem _ (ih h.2 s' hrest target htarget)

end Forward

end State

end Rollout
