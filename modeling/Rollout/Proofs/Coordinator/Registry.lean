import Rollout.Proofs.Coordinator.Courses
import Rollout.Proofs.Simulation.Quiet

/-!
# Executions that a target remembers

A refused stop leaves an admitted execution running.  It is remembered: it stays on a row of the
target, and the next trigger on the target requests its stop again (`Course.remembered`).  What can
take it from the row is a trigger for another execution of the same attempt, since a row has one
execution for each attempt key.  Then the refused execution runs on, no row tells of it, and no
later trigger asks for its stop (`World.forgotten_after_refusal`).

In a course a trigger names the workflow under which its execution was started.  An execution that
was started under another one is no rival to any trigger, so it goes the same way with no refused
stop (`World.forgotten_under_other_workflow`).
-/

namespace Rollout

namespace World

open Coordinator

/-- A trigger that has just succeeded is not replaced. -/
theorem not_replaced_of_trigger {t : Trigger} {o : Outcome} {past : List Act} :
    ¬ Replaced t (.trigger t (.ok o) :: past) := by
  intro h
  cases h with
  | refused _ _ _ _ hne => exact hne rfl
  | next _ hother => exact hother o rfl

/-- An admitted execution that still runs is recorded on a row of its target, and every further
trigger on the target that succeeds requests its stop, if all triggers on the target name one
workflow, admission sees all of its records, and the execution was not replaced. -/
theorem Course.remembered {settings : CoordinatorSettings} {acts : List Act}
    {w : World RecordTable} (hcourse : Course settings acts w) {deployment workflow : String}
    (hworkflow : OneWorkflow acts deployment workflow)
    (hwindow : (w.store.ofDeployment deployment).length ≤ settings.window)
    {t : Trigger} {o : Outcome} (hmem : .trigger t (.ok o) ∈ acts)
    (hdeployment : t.deployment = deployment)
    (hrunning : w.engine.isRunning t.execution = true) (hstanding : ¬ Replaced t acts) :
    (∃ row ∈ w.store.ofDeployment deployment, t.execution ∈ row.executions.values) ∧
      ∀ {further : Trigger} {answer : Outcome} {w' : World RecordTable},
        further.deployment = deployment → further.workflow = workflow →
        further.execution ≠ t.execution →
        ((coordinator settings).handle further).run w = (.ok answer, w') →
        LoggedCall.stop t.execution supersededCause ∈
          (((Simulation.coordinator settings).handle further).run { world := w }).2.log := by
  subst hdeployment
  have hrecorded := (hcourse.kept hworkflow hwindow t o hmem rfl hrunning hstanding).recorded
  refine ⟨hrecorded, ?_⟩
  intro further answer w' hdeployment hsame hne hrun
  rcases run_handle_cases hcourse.accounted.keyed hrun with ⟨_, heq, _⟩ | ⟨r, hattempt, _, _⟩
  · cases heq
  have hrival : t.execution ∈ w.rivals settings further := by
    rw [← hdeployment] at hworkflow hwindow hrecorded
    exact hcourse.accounted.rival (hsame ▸ hworkflow) hwindow ⟨t, o, hmem, hdeployment.symm, rfl⟩
      hrunning hrecorded hne.symm
  exact Simulation.logs_handle settings further hattempt hrival _ rfl rfl

/-! ## Refused stops -/

/-- The world after a trigger whose execution can no longer be stopped. -/
def stubborn : World RecordTable :=
  { fresh.delivered first with
    engine := (fresh.delivered first).engine.refuseStops first.execution }

/-- The acts that lead there. -/
def stubbornActs : List Act :=
  [.refuseStops first.execution, .trigger first (.ok (delivery [])),
    .start "deploy" first.execution]

theorem course_stubborn : Course {} stubbornActs stubborn :=
  (Course.initial [.minimal "live" 1 "app" "stack"] [])
    |>.next (.start "deploy" first.execution fun _ => List.not_mem_nil)
    |>.next (transition_delivered first fresh [] (by simp [first]) (by decide +kernel))
    |>.next (.refuseStops first.execution)

/-- An execution of another attempt. -/
def otherAttempt : Trigger := ⟨"deploy:spare:1", "deploy", "app", "live"⟩

def further : Trigger := ⟨"deploy:further:1", "deploy", "app", "live"⟩

/-- The acts by which it is admitted beside the execution that can not be stopped. -/
def besideActs : List Act :=
  .trigger otherAttempt (.ok (delivery [])) :: .start "deploy" otherAttempt.execution ::
    stubbornActs

theorem not_replaced_beside : ¬ Replaced first besideActs := by
  intro h
  cases h with
  | refused _ _ _ hkey _ => exact absurd hkey (by decide)
  | next h _ =>
    obtain ⟨⟩ | ⟨h, -⟩ := h
    obtain ⟨⟩ | ⟨h, -⟩ := h
    exact not_replaced_of_trigger h

/-- An execution whose stop was refused stays recorded beside that of another attempt, and its stop
is requested again. -/
theorem remembered_after_refusal :
    Course {} besideActs (stubborn.delivered otherAttempt) ∧
      (stubborn.delivered otherAttempt).engine.isRunning first.execution = true ∧
      (∃ row ∈ (stubborn.delivered otherAttempt).store.ofDeployment "live",
        first.execution ∈ row.executions.values) ∧
      LoggedCall.stop first.execution supersededCause ∈
        (((Simulation.coordinator {}).handle further).run
          { world := stubborn.delivered otherAttempt }).2.log := by
  have hcourse : Course {} besideActs (stubborn.delivered otherAttempt) :=
    course_stubborn
      |>.next (.start "deploy" otherAttempt.execution
        (by simp [stubbornActs, first, otherAttempt]))
      |>.next (transition_delivered otherAttempt stubborn [] (by simp [otherAttempt])
        (by decide +kernel))
  have hworkflow : OneWorkflow besideActs "live" "deploy" := by
    intro t answer hmem _
    simp only [besideActs, stubbornActs, List.mem_cons, Act.trigger.injEq, reduceCtorEq,
      List.not_mem_nil, false_or, or_false] at hmem
    rcases hmem with ⟨rfl, _⟩ | ⟨rfl, _⟩ <;> rfl
  have hrunning : (stubborn.delivered otherAttempt).engine.isRunning first.execution = true := by
    decide +kernel
  have hmem : .trigger first (.ok (delivery [])) ∈ besideActs := by
    simp [besideActs, stubbornActs]
  obtain ⟨hrecorded, hrequested⟩ :=
    hcourse.remembered hworkflow (by decide +kernel) hmem rfl hrunning not_replaced_beside
  have hanswer : (((coordinator {}).handle further).run (stubborn.delivered otherAttempt)).1 =
      .ok (delivery [otherAttempt.execution]) := by
    decide +kernel
  exact ⟨hcourse, hrunning, hrecorded, hrequested rfl rfl (by decide) (Prod.ext hanswer rfl)⟩

/-- The acts by which an execution of the same attempt comes in, and a further one starts. -/
def forgottenActs : List Act :=
  .start "deploy" further.execution :: .trigger second (.ok (delivery [])) ::
    .start "deploy" second.execution :: stubbornActs

/-- The world after them. -/
def forgotten : World RecordTable :=
  { stubborn.delivered second with
    engine := (stubborn.delivered second).engine.start "deploy" further.execution }

/-- An execution of the same attempt takes the place of one whose stop was refused.  That one runs
on unrecorded, and the next trigger does not request its stop. -/
theorem forgotten_after_refusal :
    Course {} forgottenActs forgotten ∧ OneWorkflow forgottenActs "live" "deploy" ∧
      (forgotten.store.ofDeployment "live").length ≤ CoordinatorSettings.window {} ∧
      Admitted forgottenActs "live" first.execution ∧
      forgotten.engine.isRunning first.execution = true ∧
      (∀ row ∈ forgotten.store.ofDeployment "live",
        first.execution ∉ row.executions.values) ∧
      (((coordinator {}).handle further).run forgotten).1 = .ok (delivery [second.execution]) ∧
      ∀ cause, LoggedCall.stop first.execution cause ∉
        (((Simulation.coordinator {}).handle further).run { world := forgotten }).2.log := by
  refine ⟨?_, ?_, by decide +kernel, ⟨first, delivery [], ?_, rfl, rfl⟩, by decide +kernel,
    by decide +kernel, by decide +kernel, ?_⟩
  · exact course_stubborn
      |>.next (.start "deploy" second.execution (by simp [stubbornActs, first, second]))
      |>.next (transition_delivered second stubborn [] (by simp [second]) (by decide +kernel))
      |>.next (.start "deploy" further.execution (by simp [stubbornActs, first, second, further]))
  · intro t answer hmem _
    simp only [forgottenActs, stubbornActs, List.mem_cons, Act.trigger.injEq, reduceCtorEq,
      List.not_mem_nil, false_or, or_false] at hmem
    rcases hmem with ⟨rfl, _⟩ | ⟨rfl, _⟩ <;> rfl
  · simp [forgottenActs, stubbornActs]
  · intro cause hmem
    have hlog : (((Simulation.coordinator {}).handle further).run
        ({ world := forgotten } : Simulation RecordTable)).2.log =
          [.ofObject "app" "live", .runningOf "deploy", .latest "live" 5,
            .stop second.execution supersededCause, .ofObject "app" "live", .update ⟨"live", 1⟩,
            .isBusy "stack"] := by
      decide +kernel
    simp [hlog, first, second] at hmem

/-! ## Executions under other workflows -/

/-- The world after an execution was started under another workflow than its trigger names, and the
trigger carried out. -/
def misplaced : World RecordTable :=
  (((coordinator {}).handle first).run
    { fresh with engine := fresh.engine.start "repair" first.execution }).2

/-- An execution of the same attempt takes the place of one that was started under another workflow
than its trigger names.  That one was not stopped and runs on unrecorded. -/
theorem forgotten_under_other_workflow :
    (∃ row ∈ misplaced.store.ofDeployment "live", first.execution ∈ row.executions.values) ∧
      (misplaced.delivered second).engine.isRunning first.execution = true ∧
      (misplaced.delivered second).engine.stops = [] ∧
      ∀ row ∈ (misplaced.delivered second).store.ofDeployment "live",
        first.execution ∉ row.executions.values := by
  refine ⟨?_, ?_, ?_, ?_⟩ <;> decide +kernel

end World

end Rollout
