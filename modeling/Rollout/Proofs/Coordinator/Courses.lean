import Rollout.Proofs.Coordinator.Handling

/-!
# Courses of a world

A course is a finite run of a world: records are put under fresh keys, targets become busy or free,
executions start, stops are refused and triggers are carried out for executions that were started
under their workflow.  `World.Course` lists the acts of a run newest first, each trigger with its
answer.

`World.Accounted` is what the acts tell of any world: which executions can run, and which stops can
be refused.  `World.Kept` is the invariant behind admission: an execution that was admitted to a
target and still runs stands on a row of the target, unless a refused stop let it run on and another
execution of its attempt took its place (`World.Replaced`).  An admission that sees all rows of the
target, with no stop refused, stops each of these but the execution it admits
(`not_isRunning_handled`), so one live execution is left (`Course.one_live_execution`).
-/

namespace Rollout

namespace World

/-! ## Acts -/

/-- What happens to a world. -/
inductive Act where
  | put (r : Record)
  | setBusy (target : String) (busy : Bool)
  | start (workflow execution : String)
  | refuseStops (execution : String)
  | trigger (t : Trigger) (answer : Except CoordinatorError Outcome)

/-- An act takes a world to another one.  The acts before it tell whether it can happen: records are
put under fresh keys, no execution is started twice, and a trigger is for an execution that was
started under its workflow. -/
inductive Transition (settings : CoordinatorSettings) (past : List Act) (w : World RecordTable) :
    Act → World RecordTable → Prop
  | put (r : Record) : w.store.records.get? r.key = none →
      Transition settings past w (.put r) { w with store := w.store.put r }
  | setBusy (target : String) (busy : Bool) :
      Transition settings past w (.setBusy target busy) (w.setBusy target busy)
  | start (workflow execution : String) : (∀ other, .start other execution ∉ past) →
      Transition settings past w (.start workflow execution)
        { w with engine := w.engine.start workflow execution }
  | refuseStops (execution : String) :
      Transition settings past w (.refuseStops execution)
        { w with engine := w.engine.refuseStops execution }
  | trigger (t : Trigger) (answer : Except CoordinatorError Outcome) {w' : World RecordTable} :
      .start t.workflow t.execution ∈ past →
      ((coordinator settings).handle t).run w = (answer, w') →
      Transition settings past w (.trigger t answer) w'

/-- The finite runs, from any records and busy targets while nothing runs. -/
inductive Course (settings : CoordinatorSettings) : List Act → World RecordTable → Prop
  | initial (records : List Record) (busy : List String) :
      Course settings [] { store := .ofList records, busy := busy }
  | next {past : List Act} {w : World RecordTable} {act : Act} {w' : World RecordTable} :
      Course settings past w → Transition settings past w act w' →
      Course settings (act :: past) w'

/-! ## What the acts tell of the world -/

/-- What can be told of a world from the acts that led to it. -/
structure Accounted (acts : List Act) (w : World RecordTable) : Prop where
  keyed : w.store.Keyed
  /-- Only what was started runs, and under no other workflow. -/
  started : ∀ {workflow execution : String}, execution ∈ w.engine.runningOf workflow →
    .start workflow execution ∈ acts
  started_once : ∀ {workflow other execution : String}, .start workflow execution ∈ acts →
    .start other execution ∈ acts → workflow = other
  triggered : ∀ {t : Trigger} {answer : Except CoordinatorError Outcome},
    .trigger t answer ∈ acts → .start t.workflow t.execution ∈ acts
  refused : ∀ {execution : String}, execution ∈ w.engine.refused → .refuseStops execution ∈ acts

/-- An act is accounted for when what it adds to the world is its own doing. -/
theorem Accounted.cons {acts : List Act} {w w' : World RecordTable} (h : Accounted acts w)
    (act : Act) (hkeyed : w'.store.Keyed)
    (hrunning : ∀ {workflow execution}, execution ∈ w'.engine.runningOf workflow →
      execution ∈ w.engine.runningOf workflow ∨ .start workflow execution = act)
    (hstart : ∀ {workflow execution}, .start workflow execution = act →
      ∀ other, .start other execution ∉ acts)
    (htrigger : ∀ {t answer}, .trigger t answer = act → .start t.workflow t.execution ∈ acts)
    (hrefused : ∀ {execution}, execution ∈ w'.engine.refused →
      execution ∈ w.engine.refused ∨ .refuseStops execution = act) :
    Accounted (act :: acts) w' where
  keyed := hkeyed
  started hmem := by
    rcases hrunning hmem with hold | rfl
    · exact List.mem_cons_of_mem _ (h.started hold)
    · exact List.mem_cons_self
  started_once hfirst hsecond := by
    rcases List.mem_cons.mp hfirst with hfirst | hfirst <;>
      rcases List.mem_cons.mp hsecond with hsecond | hsecond
    · cases hfirst.trans hsecond.symm
      rfl
    · exact absurd hsecond (hstart hfirst _)
    · exact absurd hfirst (hstart hsecond _)
    · exact h.started_once hfirst hsecond
  triggered hmem := by
    rcases List.mem_cons.mp hmem with heq | hmem
    · exact List.mem_cons_of_mem _ (htrigger heq)
    · exact List.mem_cons_of_mem _ (h.triggered hmem)
  refused hmem := by
    rcases hrefused hmem with hold | rfl
    · exact List.mem_cons_of_mem _ (h.refused hold)
    · exact List.mem_cons_self

theorem Transition.accounted {settings : CoordinatorSettings} {past : List Act}
    {w w' : World RecordTable} {act : Act} (hact : Transition settings past w act w')
    (h : Accounted past w) : Accounted (act :: past) w' := by
  cases hact with
  | put r _ => exact h.cons _ (h.keyed.put r) .inl nofun nofun .inl
  | setBusy target busy =>
    have hworld : (w.setBusy target busy).store = w.store ∧
        (w.setBusy target busy).engine = w.engine := by
      rw [World.setBusy]
      split <;> exact ⟨rfl, rfl⟩
    refine h.cons _ ?_ ?_ nofun nofun ?_
    · rw [hworld.1]
      exact h.keyed
    · rw [hworld.2]
      exact .inl
    · rw [hworld.2]
      exact .inl
  | start workflow execution hfresh =>
    refine h.cons _ h.keyed ?_ ?_ nofun .inl
    · intro other x hx
      rw [Engine.runningOf_start] at hx
      split at hx
      next hsame =>
        subst hsame
        rcases List.mem_append.mp hx with hold | hnew
        · exact .inl hold
        · rw [List.mem_singleton.mp hnew]
          exact .inr rfl
      next => exact .inl hx
    · intro other x heq
      cases heq
      exact hfresh
  | refuseStops execution =>
    refine h.cons _ h.keyed .inl nofun nofun ?_
    intro x hx
    rcases List.mem_cons.mp hx with rfl | hold
    · exact .inr rfl
    · exact .inl hold
  | trigger t answer hstarted hrun =>
    have htrigger : ∀ {t' : Trigger} {answer' : Except CoordinatorError Outcome},
        Act.trigger t' answer' = .trigger t answer → Act.start t'.workflow t'.execution ∈ past := by
      intro t' answer' heq
      cases heq
      exact hstarted
    rcases run_handle_cases h.keyed hrun with ⟨_, _, rfl⟩ | ⟨r, _, _, rfl⟩
    · exact h.cons _ h.keyed .inl nofun htrigger .inl
    · refine h.cons _ ?_ (fun hx => .inl (mem_runningOf_handled hx).1) nofun htrigger ?_
      · rw [store_handled]
        exact h.keyed.changeRows _ _ _
      · rw [refused_handled]
        exact .inl

theorem Course.accounted {settings : CoordinatorSettings} {acts : List Act}
    {w : World RecordTable} (h : Course settings acts w) : Accounted acts w := by
  induction h with
  | initial records busy =>
    exact {
      keyed := RecordTable.keyed_ofList records
      started := nofun
      started_once := nofun
      triggered := nofun
      refused := nofun }
  | next _ hact ih => exact hact.accounted ih

/-- An act is a successful trigger, or it keeps all rows and lets nothing run but what it starts. -/
theorem Transition.admits_or_keeps {settings : CoordinatorSettings} {past : List Act}
    {w w' : World RecordTable} {act : Act} (hact : Transition settings past w act w')
    (h : Accounted past w) :
    (∃ t r, act = .trigger t (.ok (w.outcome settings t r)) ∧ w.attempt? t = some r ∧
        w' = w.handled settings t r) ∨
      (∀ t o, act ≠ .trigger t (.ok o)) ∧
        w.store.records.values.Sublist w'.store.records.values ∧
        ∀ execution, w'.engine.isRunning execution = true → w.engine.isRunning execution = true ∨
          ∀ other, .start other execution ∉ past := by
  cases hact with
  | put r hfresh => exact .inr ⟨nofun, SortedMap.values_sublist_insert r hfresh, fun _ => .inl⟩
  | setBusy target busy =>
    rw [World.setBusy]
    split <;> exact .inr ⟨nofun, List.Sublist.refl _, fun _ => .inl⟩
  | start workflow fresh hfresh =>
    refine .inr ⟨nofun, List.Sublist.refl _, fun execution hrunning => ?_⟩
    obtain ⟨other, hmem⟩ := Engine.isRunning_iff.mp hrunning
    rw [Engine.runningOf_start] at hmem
    split at hmem
    next =>
      rcases List.mem_append.mp hmem with hold | hnew
      · exact .inl (Engine.isRunning_iff.mpr ⟨workflow, hold⟩)
      · rw [List.mem_singleton.mp hnew]
        exact .inr hfresh
    next => exact .inl (Engine.isRunning_iff.mpr ⟨other, hmem⟩)
  | refuseStops execution => exact .inr ⟨nofun, List.Sublist.refl _, fun _ => .inl⟩
  | trigger t answer _ hrun =>
    rcases run_handle_cases h.keyed hrun with ⟨_, rfl, rfl⟩ | ⟨r, hattempt, rfl, rfl⟩
    · exact .inr ⟨nofun, List.Sublist.refl _, fun _ => .inl⟩
    · exact .inl ⟨t, r, rfl, hattempt, rfl⟩

/-- No act takes a record from a target. -/
theorem Transition.length_ofDeployment_le {settings : CoordinatorSettings} {past : List Act}
    {w w' : World RecordTable} {act : Act} (hact : Transition settings past w act w')
    (h : Accounted past w) (deployment : String) :
    (w.store.ofDeployment deployment).length ≤ (w'.store.ofDeployment deployment).length := by
  rcases hact.admits_or_keeps h with ⟨t, r, _, _, rfl⟩ | ⟨_, hrows, _⟩
  · refine Nat.le_of_eq ?_
    rw [store_handled, RecordTable.ofDeployment_changeRows, List.length_map]
  · exact (hrows.filter _).length_le

theorem Accounted.refused_eq_nil {acts : List Act} {w : World RecordTable} (h : Accounted acts w)
    (hstops : ∀ execution, .refuseStops execution ∉ acts) : w.engine.refused = [] :=
  List.eq_nil_iff_forall_not_mem.mpr fun execution hmem => hstops execution (h.refused hmem)

/-! ## Admitted executions -/

/-- An execution was admitted to a target: a trigger for it succeeded. -/
def Admitted (acts : List Act) (deployment execution : String) : Prop :=
  ∃ t o, .trigger t (.ok o) ∈ acts ∧ t.deployment = deployment ∧ t.execution = execution

/-- Every execution that was admitted to a target and still runs is recorded on one of its rows. -/
def Recorded (acts : List Act) (deployment : String) (w : World RecordTable) : Prop :=
  ∀ execution, Admitted acts deployment execution → w.engine.isRunning execution = true →
    ∃ r ∈ w.store.ofDeployment deployment, execution ∈ r.executions.values

/-- All triggers on a target name one workflow. -/
def OneWorkflow (acts : List Act) (deployment workflow : String) : Prop :=
  ∀ t answer, .trigger t answer ∈ acts → t.deployment = deployment → t.workflow = workflow

theorem OneWorkflow.tail {act : Act} {acts : List Act} {deployment workflow : String}
    (h : OneWorkflow (act :: acts) deployment workflow) : OneWorkflow acts deployment workflow :=
  fun t answer hmem => h t answer (List.mem_cons_of_mem _ hmem)

theorem Accounted.started_of_admitted {acts : List Act} {w : World RecordTable}
    (h : Accounted acts w) {deployment workflow execution : String}
    (hworkflow : OneWorkflow acts deployment workflow) (hadm : Admitted acts deployment execution) :
    .start workflow execution ∈ acts := by
  obtain ⟨t, o, hmem, hdeployment, rfl⟩ := hadm
  rw [← hworkflow t (.ok o) hmem hdeployment]
  exact h.triggered hmem

/-- An admission that sees all rows of its target takes what is recorded there for rivals. -/
theorem Accounted.rival {settings : CoordinatorSettings} {acts : List Act}
    {w : World RecordTable} (h : Accounted acts w) {t : Trigger}
    (hworkflow : OneWorkflow acts t.deployment t.workflow)
    (hwindow : (w.store.ofDeployment t.deployment).length ≤ settings.window) {execution : String}
    (hadm : Admitted acts t.deployment execution) (hrunning : w.engine.isRunning execution = true)
    (hrecorded : ∃ row ∈ w.store.ofDeployment t.deployment, execution ∈ row.executions.values)
    (hne : execution ≠ t.execution) : execution ∈ w.rivals settings t := by
  obtain ⟨workflow, hmem⟩ := Engine.isRunning_iff.mp hrunning
  obtain ⟨row, hrow, hvalue⟩ := hrecorded
  have hsame : workflow = t.workflow :=
    h.started_once (h.started hmem) (h.started_of_admitted hworkflow hadm)
  subst hsame
  exact mem_rivals.mpr ⟨hmem, hne, row, (RecordTable.mem_latest hwindow).mpr hrow, hvalue⟩

/-- An admission that sees all rows of its target, with no stop refused, leaves no other admitted
execution running: what runs is recorded, so it is a rival, and every rival is stopped. -/
theorem not_isRunning_handled {settings : CoordinatorSettings} {acts : List Act}
    {w : World RecordTable} (h : Accounted acts w) (hrefused : w.engine.refused = [])
    {t : Trigger} (r : Record) (hworkflow : OneWorkflow acts t.deployment t.workflow)
    (hwindow : (w.store.ofDeployment t.deployment).length ≤ settings.window)
    (hrecorded : Recorded acts t.deployment w) {execution : String}
    (hadm : Admitted acts t.deployment execution) (hne : execution ≠ t.execution) :
    (w.handled settings t r).engine.isRunning execution = false := by
  rw [← Bool.not_eq_true]
  intro hrunning
  obtain ⟨workflow, hmem⟩ := Engine.isRunning_iff.mp hrunning
  have hbefore := Engine.isRunning_iff.mpr ⟨workflow, (mem_runningOf_handled hmem).1⟩
  have hrival := h.rival hworkflow hwindow hadm hbefore (hrecorded execution hadm hbefore) hne
  have hnever := mem_refused_of_isRunning hrival hrunning
  rw [hrefused] at hnever
  cases hnever

/-! ## Enrolled executions -/

/-- The enrollment of a trigger is replaced when, after a stop of its execution was refused, a
trigger for another execution of the same attempt succeeds on its object and target.  It stays
replaced until the trigger succeeds again. -/
inductive Replaced (t : Trigger) : List Act → Prop
  | refused {past : List Act} {u : Trigger} {o : Outcome} : .refuseStops t.execution ∈ past →
      u.object = t.object → u.deployment = t.deployment →
      attemptKey u.execution = attemptKey t.execution → u.execution ≠ t.execution →
      Replaced t (.trigger u (.ok o) :: past)
  | next {past : List Act} {act : Act} : Replaced t past → (∀ o, act ≠ .trigger t (.ok o)) →
      Replaced t (act :: past)

theorem Replaced.refuseStops_mem {t : Trigger} {acts : List Act} (h : Replaced t acts) :
    .refuseStops t.execution ∈ acts := by
  induction h with
  | refused hmem => exact List.mem_cons_of_mem _ hmem
  | next _ _ ih => exact List.mem_cons_of_mem _ ih

/-- Every execution that was admitted to a target and still runs is enrolled for each of its
triggers that was not replaced. -/
def Kept (acts : List Act) (deployment : String) (w : World RecordTable) : Prop :=
  ∀ t o, .trigger t (.ok o) ∈ acts → t.deployment = deployment →
    w.engine.isRunning t.execution = true → ¬ Replaced t acts → w.Enrolled t

/-- An act keeps enrolled what it does not replace. -/
theorem Transition.kept {settings : CoordinatorSettings} {past : List Act}
    {w w' : World RecordTable} {act : Act} (hact : Transition settings past w act w')
    (h : Accounted past w) {deployment workflow : String}
    (hworkflow : OneWorkflow (act :: past) deployment workflow)
    (hwindow : (w.store.ofDeployment deployment).length ≤ settings.window)
    (hkept : Kept past deployment w) : Kept (act :: past) deployment w' := by
  rintro t o hmem rfl hrunning hstanding
  rcases hact.admits_or_keeps h with ⟨u, r, rfl, hattempt, rfl⟩ | ⟨hother, hrows, hstarted⟩
  · by_cases hself : t = u
    · rw [hself]
      exact enrolled_handled hattempt
    have hpast : .trigger t (.ok o) ∈ past := by
      rcases List.mem_cons.mp hmem with heq | hpast
      · cases heq
        exact absurd rfl hself
      · exact hpast
    obtain ⟨_, hlive⟩ := Engine.isRunning_iff.mp hrunning
    have hbefore := Engine.isRunning_iff.mpr ⟨_, (mem_runningOf_handled hlive).1⟩
    have henrolled : w.Enrolled t := by
      refine hkept t o hpast rfl hbefore fun hreplaced => hstanding ?_
      refine hreplaced.next fun o' heq => ?_
      cases heq
      exact hself rfl
    -- A trigger for another execution of the attempt only meets what was refused its stop.
    refine henrolled.handled fun hobject hdeployment hkey => ?_
    refine Classical.byContradiction fun hne => hstanding (.refused ?_ hobject hdeployment hkey hne)
    have hone : OneWorkflow past u.deployment u.workflow := by
      rw [hworkflow u _ List.mem_cons_self hdeployment, hdeployment]
      exact hworkflow.tail
    rw [← hdeployment] at hwindow
    exact h.refused (mem_refused_of_isRunning (h.rival hone hwindow
      ⟨t, o, hpast, hdeployment.symm, rfl⟩ hbefore (hdeployment ▸ henrolled.recorded)
      (Ne.symm hne)) hrunning)
  · have hpast : .trigger t (.ok o) ∈ past := by
      rcases List.mem_cons.mp hmem with heq | hpast
      · exact absurd heq.symm (hother t o)
      · exact hpast
    have hbefore : w.engine.isRunning t.execution = true := by
      rcases hstarted _ hrunning with hbefore | hfresh
      · exact hbefore
      · exact absurd (h.triggered hpast) (hfresh _)
    obtain ⟨row, hrow, hget⟩ := hkept t o hpast rfl hbefore fun hreplaced =>
      hstanding (hreplaced.next (hother t))
    exact ⟨row, (hrows.filter _).subset hrow, hget⟩

section Runs

variable {settings : CoordinatorSettings} {acts : List Act} {w : World RecordTable}

/-- Along a course that keeps within the window every execution stays enrolled. -/
theorem Course.kept (hcourse : Course settings acts w) {deployment workflow : String}
    (hworkflow : OneWorkflow acts deployment workflow)
    (hwindow : (w.store.ofDeployment deployment).length ≤ settings.window) :
    Kept acts deployment w := by
  induction hcourse with
  | initial records busy => exact nofun
  | @next past w act w' hpast hact ih =>
    have hsmaller := Nat.le_trans (hact.length_ofDeployment_le hpast.accounted deployment) hwindow
    exact hact.kept hpast.accounted hworkflow hsmaller (ih hworkflow.tail hsmaller)

/-- Where no stop is refused, every admitted execution that runs is recorded. -/
theorem Course.recorded (hcourse : Course settings acts w)
    (hstops : ∀ execution, .refuseStops execution ∉ acts) {deployment workflow : String}
    (hworkflow : OneWorkflow acts deployment workflow)
    (hwindow : (w.store.ofDeployment deployment).length ≤ settings.window) :
    Recorded acts deployment w := by
  rintro _ ⟨t, o, hmem, rfl, rfl⟩ hrunning
  exact (hcourse.kept hworkflow hwindow t o hmem rfl hrunning
    fun hreplaced => hstops _ hreplaced.refuseStops_mem).recorded

/-- Whenever a trigger has just succeeded, no other execution that was ever admitted to its target
runs, if no stop was refused, all triggers on the target name one workflow and admission sees all of
its records. -/
theorem Course.one_live_execution {t : Trigger} {o : Outcome}
    (hcourse : Course settings (.trigger t (.ok o) :: acts) w)
    (hstops : ∀ execution, .refuseStops execution ∉ acts)
    (hworkflow : OneWorkflow acts t.deployment t.workflow)
    (hwindow : (w.store.ofDeployment t.deployment).length ≤ settings.window)
    {execution : String} (hadm : Admitted acts t.deployment execution)
    (hne : execution ≠ t.execution) : w.engine.isRunning execution = false := by
  obtain ⟨⟩ | ⟨hpast, hact⟩ := hcourse
  have hsmaller := Nat.le_trans (hact.length_ofDeployment_le hpast.accounted t.deployment) hwindow
  have hrecorded := hpast.recorded hstops hworkflow hsmaller
  have hrefused := hpast.accounted.refused_eq_nil hstops
  cases hact with
  | trigger t answer _ hrun =>
    rcases run_handle_cases hpast.accounted.keyed hrun with ⟨_, heq, _⟩ | ⟨r, _, _, rfl⟩
    · cases heq
    · exact not_isRunning_handled hpast.accounted hrefused r hworkflow hsmaller hrecorded hadm hne

end Runs

/-! ## Two executions of one attempt -/

/-- The world before: one record, which is deployed. -/
def fresh : World RecordTable where
  store := .ofList [.minimal "live" 1 "app" "stack"]

def first : Trigger := ⟨"deploy:live:1", "deploy", "app", "live"⟩

/-- The other execution has the attempt key of the first. -/
def second : Trigger := ⟨"deploy:live:2", "deploy", "app", "live"⟩

/-- The world after an execution was started and its trigger carried out. -/
def delivered (t : Trigger) (w : World RecordTable) : World RecordTable :=
  (((coordinator {}).handle t).run { w with engine := w.engine.start t.workflow t.execution }).2

/-- The outcome of a delivery that stops the given executions. -/
def delivery (superseded : List String) : Outcome where
  record := ⟨"live", 1⟩
  superseded := superseded
  phase := .proceeding
  history := [.received, .admissionChecked, .registeredAndContinuing, .targetBusyChecked,
    .proceeding]

theorem transition_delivered {past : List Act} (t : Trigger) (w : World RecordTable)
    (superseded : List String) (hstarted : .start t.workflow t.execution ∈ past)
    (hanswer : (((coordinator {}).handle t).run
      { w with engine := w.engine.start t.workflow t.execution }).1 = .ok (delivery superseded)) :
    Transition {} past { w with engine := w.engine.start t.workflow t.execution }
      (.trigger t (.ok (delivery superseded))) (w.delivered t) :=
  .trigger t _ hstarted (Prod.ext hanswer rfl)

theorem one_live_execution_delivered :
    Course {} [.trigger second (.ok (delivery [first.execution])), .start "deploy" second.execution,
        .trigger first (.ok (delivery [])), .start "deploy" first.execution]
      ((fresh.delivered first).delivered second) ∧
    ((fresh.delivered first).delivered second).engine.isRunning first.execution = false := by
  have hfirst : Course {} [.trigger first (.ok (delivery [])), .start "deploy" first.execution]
      (fresh.delivered first) :=
    (Course.initial [.minimal "live" 1 "app" "stack"] [])
      |>.next (.start "deploy" first.execution fun _ => List.not_mem_nil)
      |>.next (transition_delivered first fresh [] (by simp [first]) (by decide +kernel))
  have hsecond := hfirst.next (.start "deploy" second.execution (by simp [first, second]))
  have hcourse : Course {} _ ((fresh.delivered first).delivered second) :=
    hsecond.next (transition_delivered second (fresh.delivered first) [first.execution]
      (by simp [second]) (by decide +kernel))
  refine ⟨hcourse, hcourse.one_live_execution (by simp) ?_ (by decide +kernel) ?_
    (by decide +kernel)⟩
  · intro t answer hmem _
    obtain ⟨rfl, rfl⟩ : t = first ∧ answer = .ok (delivery []) := by simpa using hmem
    rfl
  · exact ⟨first, delivery [], by simp, rfl, rfl⟩

end World

end Rollout
