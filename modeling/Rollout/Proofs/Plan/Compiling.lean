import Rollout.Proofs.Plan.Layout

/-!
# Compilation gives the layout

Compilation refuses a name that was given before and a nested list without steps.  `Accounts` says
this of a program of the compiler for all names given so far: when it succeeds, it gives a certain
value, has met no gap, and has added certain names that are new and distinct; when it fails, the
fault is a gap or one of these names.  The relation composes along `bind` (`Accounts.bind`), so the
four mutual functions of the compiler need one short case each (`Step.accounts_compile` and its
companions).

`Step.compileList_eq` and `Step.compileList_error` read the relation off for a whole list, where no
name was given before.
-/

namespace Rollout

/-- Names or gaps account for a fault: a field that it calls empty is a gap, a name that it calls
repeated is given at least twice. -/
inductive Explained (names : List String) (gaps : List (String × StepField)) :
    PlanError → Prop where
  | emptyBranch {name : String} {field : StepField} (h : (name, field) ∈ gaps) :
    Explained names gaps (.emptyBranch name field)
  | duplicateName {name : String} (h : 2 ≤ names.count name) :
    Explained names gaps (.duplicateName name)

namespace Explained

variable {names names' : List String} {gaps gaps' : List (String × StepField)} {e : PlanError}

/-- More names and more gaps account for a fault all the more. -/
theorem mono (h : Explained names gaps e) (hn : ∀ n, names.count n ≤ names'.count n)
    (hg : ∀ g ∈ gaps, g ∈ gaps') : Explained names' gaps' e := by
  cases h with
  | emptyBranch hmem => exact .emptyBranch (hg _ hmem)
  | duplicateName hcount => exact .duplicateName (Nat.le_trans hcount (hn _))

/-- Nothing accounts for a fault where all names differ and no field is empty. -/
theorem elim (h : Explained names [] e) (hnd : names.Nodup) : False := by
  cases h with
  | emptyBranch hmem => cases hmem
  | @duplicateName name hcount =>
    have hone := List.nodup_iff_count.mp hnd name
    omega

end Explained

theorem run_takeName (name : String) (taken : List String) :
    (takeName name).run taken =
      if name ∈ taken then .error (.duplicateName name) else .ok ((), name :: taken) := by
  by_cases h : name ∈ taken
  · simp [takeName, h]
    rfl
  · simp [takeName, h]
    rfl

/-- What a program of the compiler does with any distinct names given before it. -/
def Accounts {α : Type} (x : Compiling α) (value : α) (names : List String)
    (gaps : List (String × StepField)) : Prop :=
  ∀ taken : List String, taken.Nodup →
    match x.run taken with
    | .ok (a, after) =>
      a = value ∧ gaps = [] ∧ after.Perm (names ++ taken) ∧ after.Nodup
    | .error e => Explained (names ++ taken) gaps e

namespace Accounts

variable {α β : Type} {x : Compiling α} {f : α → Compiling β} {a : α} {b : β}
  {names names' : List String} {gaps gaps' : List (String × StepField)}

theorem pure (a : α) : Accounts (Pure.pure a) a [] [] := by
  intro taken hnd
  exact ⟨rfl, rfl, .refl _, hnd⟩

/-- A failure for a gap accounts for that gap, whatever value was wanted. -/
theorem throw (a : α) (name : String) (field : StepField) :
    Accounts (throw (.emptyBranch name field)) a [] [(name, field)] := by
  intro taken _
  exact .emptyBranch (List.mem_singleton.mpr rfl)

theorem takeName (name : String) : Accounts (takeName name) () [name] [] := by
  intro taken hnd
  rw [run_takeName]
  by_cases h : name ∈ taken
  · rw [if_pos h]
    refine .duplicateName ?_
    have := List.count_pos_iff.mpr h
    simp only [List.cons_append, List.nil_append, List.count_cons_self]
    omega
  · rw [if_neg h]
    exact ⟨rfl, rfl, .refl _, List.nodup_cons.mpr ⟨h, hnd⟩⟩

/-- Names count only up to their order, gaps only as a set. -/
theorem congr (h : Accounts x a names gaps) (hn : names.Perm names')
    (hg : ∀ g, g ∈ gaps ↔ g ∈ gaps') : Accounts x a names' gaps' := by
  intro taken hnd
  have hx := h taken hnd
  split at hx
  · rename_i v after hrun
    obtain ⟨rfl, hgaps, hperm, hafter⟩ := hx
    refine ⟨rfl, ?_, hperm.trans (hn.append_right taken), hafter⟩
    subst hgaps
    exact List.eq_nil_iff_forall_not_mem.mpr fun g hmem => List.not_mem_nil ((hg g).mpr hmem)
  · rename_i e hrun
    exact hx.mono (fun n => Nat.le_of_eq ((hn.append_right taken).count_eq n)) fun g => (hg g).mp

/-- One program behind the other: the names add up, and so do the gaps. -/
theorem bind (hx : Accounts x a names gaps) (hf : Accounts (f a) b names' gaps') :
    Accounts (x >>= f) b (names ++ names') (gaps ++ gaps') := by
  intro taken hnd
  have h := hx taken hnd
  rw [StateT.run_bind]
  split at h
  · rename_i v after hrun
    obtain ⟨rfl, rfl, hperm, hafter⟩ := h
    have h' := hf after hafter
    have hall : (names' ++ after).Perm (names ++ names' ++ taken) := by
      refine (hperm.append_left names').trans ?_
      rw [← List.append_assoc]
      exact List.perm_append_comm.append_right taken
    rw [hrun]
    change match (f v).run after with
      | .ok (w, last) =>
        w = b ∧ gaps' = [] ∧ last.Perm (names ++ names' ++ taken) ∧ last.Nodup
      | .error e => Explained (names ++ names' ++ taken) gaps' e
    split at h'
    · obtain ⟨rfl, rfl, hperm', hlast⟩ := h'
      exact ⟨rfl, rfl, hperm'.trans hall, hlast⟩
    · exact h'.mono (fun n => Nat.le_of_eq (hall.count_eq n)) fun _ hg => hg
  · rename_i e hrun
    rw [hrun]
    refine h.mono (fun n => ?_) fun g hg => List.mem_append_left _ hg
    simp only [List.count_append]
    omega

end Accounts

namespace Step

/-! ## The functions of the compiler -/

theorem accounts_firstName (owner : String) (field : StepField) (steps : List Step) :
    Accounts (liftM (firstName owner field steps)) (startName steps) []
      (if steps.isEmpty then [(owner, field)] else []) := by
  cases steps with
  | nil => exact .throw _ owner field
  | cons first rest => exact .pure first.name

/-- A parallel state gives out its name and, where nothing joins it, that of its merge state. -/
theorem accounts_join (mergeType name : String) (scopes : List (Scope State))
    (branches : List (List Step)) (fields : List (String × Json)) (successor : Option Step) :
    Accounts (join mergeType name scopes fields successor)
      (joined mergeType name scopes fields successor)
      (Place.names mergeType ⟨.parallel name branches fields, successor⟩) [] := by
  rw [Place.names, madeUp_parallel]
  unfold join joined
  cases successor.filter (isJoin mergeType) with
  | some next => exact .bind (.takeName name) (.pure _)
  | none => exact .bind (.takeName name) (.bind (.takeName (name ++ "-Merge")) (.pure _))

mutual

theorem accounts_compile (mergeType : String) : ∀ (successor : Option Step) (step : Step),
    Accounts (compile mergeType successor step) (layout mergeType successor step)
      (namesAt mergeType (places successor step)) (gapsAt (places successor step))
  | successor, .task name fields => by
      simp only [compile, layout, places]
      exact .bind (.takeName name) (.pure _)
  | successor, .choice name condition whenTrue whenFalse => by
      simp only [compile, layout, places]
      refine Accounts.congr (.bind (.takeName name)
        (.bind (accounts_firstName name .isTrue whenTrue)
        (.bind (accounts_compileList mergeType successor whenTrue)
        (.bind (accounts_compileElse mergeType successor name condition whenTrue whenFalse)
        (.pure _))))) ?_ ?_
      · simp only [namesAt_cons, namesAt_append, Place.names, List.nil_append, List.append_nil,
          List.cons_append]
        exact .cons name (List.perm_append_comm_assoc _ _ _)
      · intro g
        simp only [gapsAt_cons, gapsAt_append, Place.gaps, List.mem_append, List.not_mem_nil]
        grind
  | successor, .parallel name branches fields => by
      simp only [compile, layout, places]
      have h := Accounts.bind
        (f := fun scopes => join mergeType name scopes fields successor)
        (accounts_compileBranches mergeType name branches)
        (accounts_join mergeType name _ branches fields successor)
      cases branches with
      | nil =>
        refine Accounts.congr (.bind (.throw () name .branches) h) List.perm_append_comm fun g => ?_
        simp [Place.gaps]
      | cons branch rest =>
        refine Accounts.congr h List.perm_append_comm fun g => ?_
        rw [gapsAt_cons, Place.gaps, List.isEmpty_cons, Bool.false_or, List.append_nil]

theorem accounts_compileList (mergeType : String) :
    ∀ (successor : Option Step) (steps : List Step),
      Accounts (compileList mergeType successor steps) (layoutList mergeType successor steps)
        (namesAt mergeType (placesInList successor steps)) (gapsAt (placesInList successor steps))
  | _, [] => .pure []
  | successor, step :: rest => by
      rw [compileList, layoutList, placesInList, namesAt_append, gapsAt_append]
      refine .bind (accounts_compile mergeType _ step) ?_
      rw [← List.append_nil (namesAt _ _), ← List.append_nil (gapsAt _)]
      exact .bind (accounts_compileList mergeType successor rest) (.pure _)

theorem accounts_compileElse (mergeType : String) :
    ∀ (successor : Option Step) (name : String) (condition : List (String × Json))
      (whenTrue : List Step) (whenFalse : Option (List Step)),
      Accounts (compileElse mergeType successor name whenFalse)
        (elseName successor name whenFalse, layoutElse mergeType successor name whenFalse)
        (Place.madeUp mergeType ⟨.choice name condition whenTrue whenFalse, successor⟩ ++
          namesAt mergeType (placesInElse successor whenFalse))
        ((if whenFalse.any List.isEmpty then [(name, .isFalse)] else []) ++
          gapsAt (placesInElse successor whenFalse))
  | successor, name, _, _, some steps => by
      rw [compileElse, elseName, layoutElse, placesInElse]
      refine Accounts.congr (.bind (accounts_firstName name .isFalse steps)
        (.bind (accounts_compileList mergeType successor steps) (.pure _))) ?_ ?_
      · simp [Place.madeUp]
      · simp
  | some next, name, _, _, none => .pure _
  | none, name, _, _, none => .bind (.takeName _) (.pure _)

theorem accounts_compileBranches (mergeType : String) (owner : String) :
    ∀ branches : List (List Step),
      Accounts (compileBranches mergeType owner branches) (layoutBranches mergeType branches)
        (namesAt mergeType (placesInBranches branches))
        ((if branches.any List.isEmpty then [(owner, .branches)] else []) ++
          gapsAt (placesInBranches branches))
  | [] => .pure []
  | branch :: rest => by
      rw [compileBranches, layoutBranches, placesInBranches]
      refine Accounts.congr (.bind (accounts_firstName owner .branches branch)
        (.bind (accounts_compileList mergeType none branch)
        (.bind (accounts_compileBranches mergeType owner rest) (.pure _)))) ?_ ?_
      · simp
      · intro g
        simp only [gapsAt_append, List.any_cons, List.mem_append]
        grind

end

/-- A list of steps compiles to its layout if it compiles at all, and then it has no gap and all its
names differ. -/
theorem compileList_ok {mergeType : String} {successor : Option Step} {steps : List Step}
    {states : List State} {taken : List String}
    (h : (compileList mergeType successor steps).run [] = .ok (states, taken)) :
    states = layoutList mergeType successor steps ∧ gapsAt (placesInList successor steps) = [] ∧
      (namesAt mergeType (placesInList successor steps)).Nodup := by
  have hacc := accounts_compileList mergeType successor steps [] List.nodup_nil
  rw [h] at hacc
  obtain ⟨hstates, hgaps, hperm, hnd⟩ := hacc
  rw [List.append_nil] at hperm
  exact ⟨hstates, hgaps, hperm.nodup_iff.mp hnd⟩

/-- A list of steps fails to compile only for a gap or for a repeated name. -/
theorem compileList_error {mergeType : String} {successor : Option Step} {steps : List Step}
    {e : PlanError} (h : (compileList mergeType successor steps).run [] = .error e) :
    Explained (namesAt mergeType (placesInList successor steps))
      (gapsAt (placesInList successor steps)) e := by
  have hacc := accounts_compileList mergeType successor steps [] List.nodup_nil
  rw [h, List.append_nil] at hacc
  exact hacc

end Step

namespace Plan

/-- A plan is linked to its layout if it can be linked, and then it has no gap and all its names
differ. -/
theorem link_ok {mergeType : String} {plan : Plan} {g : StateGraph}
    (h : plan.link mergeType = .ok g) :
    g = plan.layout mergeType ∧ plan.gaps = [] ∧ (plan.names mergeType).Nodup := by
  obtain ⟨steps, hne⟩ := plan
  cases steps with
  | nil => exact absurd rfl hne
  | cons first rest =>
    cases hrun : (Step.compileList mergeType none (first :: rest)).run [] with
    | error e =>
      rw [link, hrun] at h
      cases h
    | ok result =>
      obtain ⟨states, taken⟩ := result
      rw [link, hrun] at h
      cases h
      obtain ⟨rfl, hgaps, hnd⟩ := Step.compileList_ok hrun
      exact ⟨rfl, hgaps, hnd⟩

/-- A plan cannot be linked only for a gap or for a repeated name. -/
theorem link_error {mergeType : String} {plan : Plan} {e : PlanError}
    (h : plan.link mergeType = .error e) : Explained (plan.names mergeType) plan.gaps e := by
  obtain ⟨steps, hne⟩ := plan
  cases steps with
  | nil => exact absurd rfl hne
  | cons first rest =>
    cases hrun : (Step.compileList mergeType none (first :: rest)).run [] with
    | error e' =>
      rw [link, hrun] at h
      cases h
      exact Step.compileList_error hrun
    | ok result =>
      rw [link, hrun] at h
      cases h

end Plan

end Rollout
