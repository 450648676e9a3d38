import Mathlib.Data.List.Basic
import Rollout.Proofs.SortedMap
import Rollout.Workflow.Engine

/-!
# Stopping executions

A stop is granted exactly to the stoppable executions, those that run and are not refused, and then
ends all runs of its execution and nothing else (`Engine.stop_ok_iff`).  `Engine.stopEach` requests
stops one after the other and passes over the refusals.  As a granted stop makes no other execution
more or less stoppable, the outcome can be told beforehand: stopped are the stoppable ones of the
list (`mem_stopEach`), each once and at its first place (`pairwise_stopEach`), and each workflow
keeps its other executions (`runningOf_stopEach`).
-/

namespace Rollout

namespace Engine

/-! ## Running executions -/

theorem runningOf_start (e : Engine) (workflow execution other : String) :
    (e.start workflow execution).runningOf other =
      if other = workflow then e.runningOf workflow ++ [execution] else e.runningOf other := by
  rw [runningOf, start, SortedMap.get?_insert]
  split <;> rfl

/-- An execution runs if it runs under some workflow. -/
theorem isRunning_iff {e : Engine} {execution : String} :
    e.isRunning execution = true ↔ ∃ workflow, execution ∈ e.runningOf workflow := by
  simp only [isRunning, List.any_eq_true, SortedMap.mem_values, List.contains_iff_mem]
  constructor
  · rintro ⟨running, ⟨workflow, hget⟩, hmem⟩
    refine ⟨workflow, ?_⟩
    rw [runningOf, hget]
    exact hmem
  · rintro ⟨workflow, hmem⟩
    rw [runningOf] at hmem
    cases hget : e.running.get? workflow with
    | none =>
      rw [hget] at hmem
      exact absurd hmem List.not_mem_nil
    | some running =>
      rw [hget] at hmem
      exact ⟨running, ⟨workflow, hget⟩, hmem⟩

/-! ## One stop -/

/-- A stop of the execution would be granted. -/
def Stoppable (e : Engine) (execution : String) : Prop :=
  execution ∉ e.refused ∧ e.isRunning execution = true

/-- The engine after a granted stop. -/
def stopped (e : Engine) (execution cause : String) : Engine :=
  { e with
    running := dropExecution execution e.running
    stops := e.stops ++ [⟨execution, cause⟩] }

@[simp] theorem runningOf_stopped (e : Engine) (execution cause workflow : String) :
    (e.stopped execution cause).runningOf workflow =
      (e.runningOf workflow).filter (· != execution) := by
  have hget : (dropExecution execution e.running).get? workflow =
      (e.running.get? workflow).map (·.filter (· != execution)) :=
    SortedMap.get?_mapValues _ e.running workflow
  rw [runningOf, runningOf, stopped, hget]
  cases e.running.get? workflow <;> rfl

/-- A stop is granted exactly to the stoppable executions. -/
theorem stop_ok_iff {e e' : Engine} {execution cause : String} :
    e.stop execution cause = .ok e' ↔ e.Stoppable execution ∧ e' = e.stopped execution cause := by
  unfold stop
  split
  next hrefused =>
    have hnot : ¬ e.Stoppable execution := fun h => h.1 (List.contains_iff_mem.mp hrefused)
    simp [hnot]
  next hrefused =>
    have hmem : execution ∉ e.refused := fun h => hrefused (List.contains_iff_mem.mpr h)
    split
    next hrunning =>
      have hstop : e.Stoppable execution := ⟨hmem, hrunning⟩
      simp only [Except.ok.injEq, hstop, true_and]
      exact eq_comm
    next hrunning =>
      have hnot : ¬ e.Stoppable execution := fun h => hrunning h.2
      simp [hnot]

theorem stoppable_stopped {e : Engine} {execution cause other : String} :
    (e.stopped execution cause).Stoppable other ↔ e.Stoppable other ∧ other ≠ execution := by
  simp only [Stoppable, isRunning_iff, runningOf_stopped, List.mem_filter, bne_iff_ne]
  constructor
  · rintro ⟨hrefused, workflow, hmem, hne⟩
    exact ⟨⟨hrefused, workflow, hmem⟩, hne⟩
  · rintro ⟨⟨hrefused, workflow, hmem⟩, hne⟩
    exact ⟨hrefused, workflow, hmem, hne⟩

/-! ## Stops in a row -/

/-- Request the stop of executions in order; gives those that were stopped and the engine after the
last request. -/
def stopEach (cause : String) : List String → Engine → List String × Engine
  | [], e => ([], e)
  | execution :: rest, e =>
    match e.stop execution cause with
    | .ok e' =>
      let (granted, last) := stopEach cause rest e'
      (execution :: granted, last)
    | .error _ => stopEach cause rest e

theorem stopEach_cons_of_stoppable {e : Engine} {execution cause : String} {rest : List String}
    (h : e.Stoppable execution) :
    stopEach cause (execution :: rest) e =
      (execution :: (stopEach cause rest (e.stopped execution cause)).1,
        (stopEach cause rest (e.stopped execution cause)).2) := by
  rw [stopEach, stop_ok_iff.mpr ⟨h, rfl⟩]

theorem stopEach_cons_of_not_stoppable {e : Engine} {execution cause : String}
    {rest : List String} (h : ¬ e.Stoppable execution) :
    stopEach cause (execution :: rest) e = stopEach cause rest e := by
  rw [stopEach]
  split
  next e' hstop => exact absurd (stop_ok_iff.mp hstop).1 h
  next => rfl

/-- Stopped are the stoppable ones. -/
theorem mem_stopEach {cause execution : String} {requested : List String} {e : Engine} :
    execution ∈ (stopEach cause requested e).1 ↔
      execution ∈ requested ∧ e.Stoppable execution := by
  induction requested generalizing e with
  | nil => simp [stopEach]
  | cons first rest ih =>
    by_cases h : e.Stoppable first
    · rw [stopEach_cons_of_stoppable h, List.mem_cons, ih, stoppable_stopped, List.mem_cons]
      by_cases hfirst : execution = first
      · simp [hfirst, h]
      · simp [hfirst]
    · rw [stopEach_cons_of_not_stoppable h, ih, List.mem_cons]
      constructor
      · rintro ⟨hmem, hstop⟩
        exact ⟨.inr hmem, hstop⟩
      · rintro ⟨rfl | hmem, hstop⟩
        · exact absurd hstop h
        · exact ⟨hmem, hstop⟩

/-- Requests that cannot be granted change nothing. -/
theorem stopEach_of_forall_not_stoppable {cause : String} {requested : List String} {e : Engine}
    (h : ∀ execution ∈ requested, ¬ e.Stoppable execution) :
    stopEach cause requested e = ([], e) := by
  induction requested with
  | nil => rfl
  | cons first rest ih =>
    rw [stopEach_cons_of_not_stoppable (h first List.mem_cons_self)]
    exact ih fun execution hrest => h execution (List.mem_cons_of_mem _ hrest)

/-- Of a list in which some executions are picked out, they are stopped in the order in which they
first stand in it, each once. -/
theorem pairwise_stopEach (cause : String) (p : String → Bool) : ∀ (executions : List String)
    (e : Engine), (stopEach cause (executions.filter p) e).1.Pairwise fun a b =>
      executions.idxOf a < executions.idxOf b
  | [], _ => List.Pairwise.nil
  | first :: rest, e => by
      -- Places in the rest are one less, for all but the first execution.
      have hshift : ∀ {granted : List String}, first ∉ granted →
          (granted.Pairwise fun a b => rest.idxOf a < rest.idxOf b) →
          granted.Pairwise fun a b => (first :: rest).idxOf a < (first :: rest).idxOf b := by
        intro granted hfirst hpairwise
        refine hpairwise.imp_of_mem fun {a b} ha hb hlt => ?_
        rw [List.idxOf_cons_ne rest (ne_of_mem_of_not_mem ha hfirst).symm,
          List.idxOf_cons_ne rest (ne_of_mem_of_not_mem hb hfirst).symm]
        exact Nat.succ_lt_succ hlt
      by_cases hp : p first = true
      · rw [List.filter_cons_of_pos hp]
        by_cases hstop : e.Stoppable first
        · have hgone : first ∉ (stopEach cause (rest.filter p) (e.stopped first cause)).1 :=
            fun h => (stoppable_stopped.mp (mem_stopEach.mp h).2).2 rfl
          rw [stopEach_cons_of_stoppable hstop]
          refine List.pairwise_cons.mpr ⟨fun b hb => ?_,
            hshift hgone (pairwise_stopEach cause p rest _)⟩
          rw [List.idxOf_cons_self, List.idxOf_cons_ne rest (ne_of_mem_of_not_mem hb hgone).symm]
          exact Nat.succ_pos _
        · rw [stopEach_cons_of_not_stoppable hstop]
          exact hshift (fun h => hstop (mem_stopEach.mp h).2) (pairwise_stopEach cause p rest e)
      · rw [List.filter_cons_of_neg hp]
        refine hshift (fun h => hp ?_) (pairwise_stopEach cause p rest e)
        exact (List.mem_filter.mp (mem_stopEach.mp h).1).2

/-- Each workflow keeps the executions that were not stopped. -/
theorem runningOf_stopEach (cause workflow : String) (requested : List String) (e : Engine) :
    (stopEach cause requested e).2.runningOf workflow =
      (e.runningOf workflow).filter (· ∉ (stopEach cause requested e).1) := by
  induction requested generalizing e with
  | nil => exact (List.filter_eq_self.mpr fun x _ => by simp [stopEach]).symm
  | cons first rest ih =>
    by_cases h : e.Stoppable first
    · rw [stopEach_cons_of_stoppable h, ih, runningOf_stopped, List.filter_filter]
      refine List.filter_congr fun x _ => ?_
      by_cases hx : x = first <;> simp [hx]
    · rw [stopEach_cons_of_not_stoppable h]
      exact ih e

@[simp] theorem refused_stopEach (cause : String) (requested : List String) (e : Engine) :
    (stopEach cause requested e).2.refused = e.refused := by
  induction requested generalizing e with
  | nil => rfl
  | cons first rest ih =>
    by_cases h : e.Stoppable first
    · rw [stopEach_cons_of_stoppable h]
      exact ih _
    · rw [stopEach_cons_of_not_stoppable h]
      exact ih e

/-- The granted stops are logged in their order. -/
theorem stops_stopEach (cause : String) (requested : List String) (e : Engine) :
    (stopEach cause requested e).2.stops =
      e.stops ++ (stopEach cause requested e).1.map (Stop.mk · cause) := by
  induction requested generalizing e with
  | nil => exact (List.append_nil _).symm
  | cons first rest ih =>
    by_cases h : e.Stoppable first
    · rw [stopEach_cons_of_stoppable h, ih]
      exact List.append_assoc _ [Stop.mk first cause] _
    · rw [stopEach_cons_of_not_stoppable h]
      exact ih e

theorem isRunning_stopEach {cause execution : String} {requested : List String} {e : Engine} :
    (stopEach cause requested e).2.isRunning execution = true ↔
      e.isRunning execution = true ∧ execution ∉ (stopEach cause requested e).1 := by
  simp only [isRunning_iff, runningOf_stopEach, List.mem_filter, decide_eq_true_eq,
    exists_and_right]

/-- Each workflow keeps what still runs, in its order. -/
theorem runningOf_stopEach_eq_filter (cause workflow : String) (requested : List String)
    (e : Engine) :
    (stopEach cause requested e).2.runningOf workflow =
      (e.runningOf workflow).filter (stopEach cause requested e).2.isRunning := by
  rw [runningOf_stopEach]
  refine List.filter_congr fun x hx => ?_
  rw [Bool.eq_iff_iff, decide_eq_true_eq, isRunning_stopEach]
  exact (and_iff_right (isRunning_iff.mpr ⟨workflow, hx⟩)).symm

theorem stoppable_stopEach {cause execution : String} {requested : List String} {e : Engine} :
    (stopEach cause requested e).2.Stoppable execution ↔
      e.Stoppable execution ∧ execution ∉ (stopEach cause requested e).1 := by
  rw [Stoppable, Stoppable, refused_stopEach, isRunning_stopEach, and_assoc]

end Engine

end Rollout
