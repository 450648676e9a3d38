import Rollout.Proofs.Coordinator.Outcomes

/-!
# Finding the record of an execution

A trigger records its execution on every row of its object and target, the template row among them.
An execution that was on no row of the target before is found on the oldest of these rows.  That is
the attempt that the outcome names, unless the object has a template row in the target, which is
found then (`World.find_after_handle`).
-/

namespace Rollout

theorem Record.recordsExecution_apply (r : Record) (attempt execution : String) :
    (r.apply (.setExecution attempt execution)).recordsExecution execution = true := by
  rw [recordsExecution, List.contains_iff_mem, SortedMap.mem_values]
  exact ⟨attempt, by rw [Record.apply, SortedMap.get?_insert, if_pos rfl]⟩

/-- The rows of an object and a target are those of the target that were built from the object. -/
theorem RecordTable.ofObject_eq_filter (t : RecordTable) (object deployment : String) :
    t.ofObject object deployment = (t.ofDeployment deployment).filter fun r => r.object == object := by
  rw [ofObject, ofDeployment, List.filter_filter]
  exact List.filter_congr fun r _ => Bool.and_comm _ _

namespace World

open Coordinator

/-- A search by execution gives the first row of the target that records it. -/
theorem run_findByExecution_of_some (settings : CoordinatorSettings) {w : World RecordTable}
    {execution deployment : String} {r : Record}
    (h : (w.store.ofDeployment deployment).find? (·.recordsExecution execution) = some r) :
    ((coordinator settings).findByExecution execution deployment).run w = (.ok r, w) := by
  have hcall : ((coordinator settings).askStore
      ((coordinator settings).collaborators.ofDeployment deployment)).run w =
        (.ok (w.store.ofDeployment deployment), w) := run_askStore_of_ok rfl
  refine (run_bind_ok hcall).trans ?_
  rw [h]
  rfl

section Found

variable {t : Trigger} {r : Record} {w : World RecordTable}

/-- An execution that was on no row of the target is found on the first row of the object. -/
theorem find?_handled (settings : CoordinatorSettings) (r : Record)
    (hnew : ∀ row ∈ w.store.ofDeployment t.deployment, t.execution ∉ row.executions.values) :
    ((w.handled settings t r).store.ofDeployment t.deployment).find?
        (·.recordsExecution t.execution) =
      (w.store.ofObject t.object t.deployment).head?.map
        (·.apply (.setExecution (attemptKey t.execution) t.execution)) := by
  have hrecorded : ∀ row ∈ w.store.ofDeployment t.deployment,
      (if row.deployment == t.deployment && row.object == t.object then
        row.apply (.setExecution (attemptKey t.execution) t.execution) else row).recordsExecution
          t.execution = (row.object == t.object) := by
    intro row hrow
    rw [beq_iff_eq.mpr (RecordTable.mem_ofDeployment.mp hrow).2, Bool.true_and]
    split
    next hobject => rw [Record.recordsExecution_apply, hobject]
    next hobject =>
      rw [Bool.eq_false_iff.mpr hobject, Record.recordsExecution, Bool.eq_false_iff, Ne,
        List.contains_iff_mem]
      exact hnew row hrow
  rw [store_handled, RecordTable.ofDeployment_changeRows, ← List.head?_filter, List.filter_map,
    Function.comp_def, List.filter_congr hrecorded, ← RecordTable.ofObject_eq_filter, List.head?_map]
  refine Option.map_congr fun first hfirst => ?_
  obtain ⟨_, hdeployment, hobject⟩ := RecordTable.mem_ofObject.mp (List.mem_of_mem_head? hfirst)
  rw [hdeployment, hobject, beq_self_eq_true, beq_self_eq_true, Bool.and_self, if_pos rfl]

/-- The first row of the object is its template row if it has one. -/
theorem isTemplate_first (hkeyed : w.store.Keyed) {first : Record}
    (hfirst : (w.store.ofObject t.object t.deployment).head? = some first) :
    first.isTemplate = true ↔
      ∃ other ∈ w.store.ofObject t.object t.deployment, other.isTemplate = true := by
  have hsorted := hkeyed.pairwise_ofObject t.object t.deployment
  obtain ⟨rest, hrows⟩ := List.head?_eq_some_iff.mp hfirst
  rw [hrows] at hsorted ⊢
  refine ⟨fun htemplate => ⟨first, List.mem_cons_self, htemplate⟩, ?_⟩
  rintro ⟨other, hother, htemplate⟩
  rcases List.mem_cons.mp hother with rfl | hother
  · exact htemplate
  · -- No time is before that of a template row.
    have hlt := List.rel_of_pairwise_cons hsorted hother
    rw [Record.isTemplate, beq_iff_eq] at htemplate
    rw [htemplate] at hlt
    exact absurd hlt UInt64.not_lt_zero

/-- The first row of the object is the attempt if it has no template row. -/
theorem key_first (hkeyed : w.store.Keyed) (h : w.attempt? t = some r) {first : Record}
    (hfirst : (w.store.ofObject t.object t.deployment).head? = some first) :
    first.key = r.key ↔
      ∀ other ∈ w.store.ofObject t.object t.deployment, other.isTemplate = false := by
  have hr := (isAttempt_iff.mp (oldest_of_attempt? hkeyed h).1).2
  constructor
  · intro hkey other hother
    have htime : first.time = r.time := congrArg RecordKey.time hkey
    refine Bool.eq_false_iff.mpr fun htemplate => ?_
    have htemplate := (isTemplate_first hkeyed hfirst).mpr ⟨other, hother, htemplate⟩
    rw [Record.isTemplate, htime, ← Record.isTemplate] at htemplate
    rw [htemplate] at hr
    cases hr
  · intro hnone
    obtain ⟨rest, hrows⟩ := List.head?_eq_some_iff.mp hfirst
    have hkept := hnone first (List.mem_of_mem_head? hfirst)
    rw [attempt?, hrows, List.find?_cons, hkept] at h
    rw [Option.some.inj h]

/-- After a trigger that succeeds its execution, if it was on no row of the target, is found on a row
of its object.  This is the attempt that the outcome names exactly if the object has no template row
in the target, and otherwise the template row. -/
theorem find_after_handle (settings : CoordinatorSettings) (t : Trigger) {w w' : World RecordTable}
    {o : Outcome} (hkeyed : w.store.Keyed)
    (hnew : ∀ row ∈ w.store.ofDeployment t.deployment, t.execution ∉ row.executions.values)
    (hrun : ((coordinator settings).handle t).run w = (.ok o, w')) :
    ∃ row, ((coordinator settings).findByExecution t.execution t.deployment).run w' = (.ok row, w') ∧
      w'.store.records.get? row.key = some row ∧
      (row.key = o.record ↔
        ∀ other ∈ w.store.ofObject t.object t.deployment, other.isTemplate = false) ∧
      (row.isTemplate = true ↔
        ∃ other ∈ w.store.ofObject t.object t.deployment, other.isTemplate = true) := by
  rcases run_handle_cases hkeyed hrun with ⟨_, heq, _⟩ | ⟨r, hattempt, heq, rfl⟩
  · cases heq
  obtain rfl : o = w.outcome settings t r := Except.ok.inj heq
  have hrows := List.ne_nil_of_mem (mem_ofObject_of_attempt? hattempt)
  obtain ⟨first, hfirst⟩ := Option.ne_none_iff_exists'.mp (mt List.head?_eq_none_iff.mp hrows)
  have hfound := find?_handled settings r hnew
  rw [hfirst, Option.map_some] at hfound
  have hstored : (w.handled settings t r).store.Keyed := by
    rw [store_handled]
    exact hkeyed.changeRows _ _ _
  refine ⟨_, run_findByExecution_of_some settings hfound, ?_, ?_, ?_⟩
  · exact hstored.mem_values.mp
      (RecordTable.mem_ofDeployment.mp (List.mem_of_find?_eq_some hfound)).1
  · rw [Record.key_apply]
    exact key_first hkeyed hattempt hfirst
  · rw [Record.isTemplate_apply]
    exact isTemplate_first hkeyed hfirst

end Found

/-! ## A target with a template row -/

/-- The target has two attempts of the object beside rows of other objects. -/
def unregistered : World RecordTable where
  store := .ofList [.minimal "live" 0 "site" "spare", .minimal "live" 5 "app" "stack",
    .minimal "live" 3 "app" "stack", .minimal "live" 1 "site" "spare"]
  engine := ({} : Engine).start "deploy" "deploy:live:1"

/-- An execution of the attempts. -/
def registering : Trigger := ⟨"deploy:live:1", "deploy", "app", "live"⟩

/-- The outcome of its trigger. -/
def registeringOutcome : Outcome where
  record := ⟨"live", 3⟩
  superseded := []
  phase := .proceeding
  history := [.received, .admissionChecked, .registeredAndContinuing, .targetBusyChecked,
    .proceeding]

/-- The oldest attempt is found, although the target has older rows. -/
theorem find_after_handle_older_rows :
    unregistered.store.Keyed ∧
      (∀ row ∈ unregistered.store.ofDeployment "live",
        registering.execution ∉ row.executions.values) ∧
      ∃ row w', ((coordinator {}).handle registering).run unregistered =
          (.ok registeringOutcome, w') ∧
        ((coordinator {}).findByExecution "deploy:live:1" "live").run w' = (.ok row, w') ∧
        w'.store.records.get? ⟨"live", 3⟩ = some row ∧ row.isTemplate = false := by
  have hkeyed : unregistered.store.Keyed := RecordTable.keyed_ofList _
  have hnew : ∀ row ∈ unregistered.store.ofDeployment "live",
      registering.execution ∉ row.executions.values := by decide +kernel
  have hattempts : ∀ row ∈ unregistered.store.ofObject "app" "live", row.isTemplate = false := by
    decide +kernel
  have hanswer : (((coordinator {}).handle registering).run unregistered).1 =
      .ok registeringOutcome := by decide +kernel
  have hrun : ((coordinator {}).handle registering).run unregistered =
      (.ok registeringOutcome, (((coordinator {}).handle registering).run unregistered).2) :=
    Prod.ext hanswer rfl
  obtain ⟨row, hfind, hstored, hrecord, htemplate⟩ :=
    find_after_handle {} registering hkeyed hnew hrun
  refine ⟨hkeyed, hnew, row, _, hrun, hfind, ?_, ?_⟩
  · rw [hrecord.mpr hattempts] at hstored
    exact hstored
  · refine Bool.eq_false_iff.mpr fun h => ?_
    obtain ⟨other, hother, h⟩ := htemplate.mp h
    rw [hattempts other hother] at h
    cases h

/-- The target has a template row of the object. -/
def templated : World RecordTable where
  store := .ofList [.minimal "live" 0 "app" "spare", .minimal "live" 3 "app" "stack"]
  engine := ({} : Engine).start "deploy" "deploy:live:1"

/-- The template row is found, and the outcome names the attempt. -/
theorem finds_template_row :
    (∀ row ∈ templated.store.ofDeployment "live", registering.execution ∉ row.executions.values) ∧
      (((coordinator {}).handle registering).run templated).1 = .ok registeringOutcome ∧
      ∃ row, (((coordinator {}).findByExecution "deploy:live:1" "live").run
          (((coordinator {}).handle registering).run templated).2).1 = .ok row ∧
        row.key ≠ registeringOutcome.record ∧ row.isTemplate = true := by
  refine ⟨by decide +kernel, by decide +kernel, { Record.minimal "live" 0 "app" "spare" with
    executions := .ofList [("live", "deploy:live:1")] }, by decide +kernel, by decide, by decide⟩

end World

end Rollout
