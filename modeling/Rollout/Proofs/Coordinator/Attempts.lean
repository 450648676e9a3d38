import Rollout.Proofs.Coordinator.Isolation
import Rollout.Proofs.Store.Attributes
import Rollout.Proofs.Text.Segments

/-!
# Executions of one attempt

The attempt key of an execution is the part of its id before the last colon, and registrations go by
it: after any of them for one object and target each matching record has, for every attempt key among
them, one entry with the execution that was registered last under it, and is otherwise as it was
(`World.attempts_keepLast`).

On a record table a registration is a change of the rows of the object and the target, so a row goes
through the changes one after the other (`RecordTable.get?_foldl_changeRows`), and of changes for one
attribute the last one counts (`Record.HasLast`).  A byte store of plain names is driven as the table
that it represents.
-/

namespace Rollout

/-- The execution registered last under an attempt key. -/
def lastOfAttempt (attempt : String) (executions : List String) : Option String :=
  (executions.filter (attemptKey · = attempt)).getLast?

namespace Record

/-- The change that records an execution. -/
def registering (execution : String) : Change := .setExecution (attemptKey execution) execution

/-- What registrations leave of a record. -/
structure Enlisted (executions : List String) (r r' : Record) : Prop where
  /-- For an attempt key among them there is one entry, and entries of other keys stay. -/
  entries : ∀ attempt, r'.executions.entries.filter (·.1 = attempt) =
    match lastOfAttempt attempt executions with
    | some execution => [(attempt, execution)]
    | none => r.executions.entries.filter (·.1 = attempt)
  /-- Nothing else changes. -/
  others : { r' with executions := r.executions } = r

theorem filterMap_registering (attempt : String) (executions : List String) :
    (executions.map registering).filterMap (Change.execution? attempt) =
      executions.filter (attemptKey · = attempt) := by
  rw [List.filterMap_map, ← List.filterMap_eq_filter]
  refine List.filterMap_congr fun execution _ => ?_
  simp [registering, Change.execution?, Option.guard]

theorem others_foldl_registering (executions : List String) (r : Record) :
    { (executions.map registering).foldl apply r with executions := r.executions } = r := by
  induction executions generalizing r with
  | nil => rfl
  | cons execution rest ih =>
    have hrest := ih (r.apply (registering execution))
    rw [List.map_cons, List.foldl_cons]
    exact congrArg (fun s : Record => { s with executions := r.executions }) hrest

theorem enlisted_foldl (executions : List String) (r : Record) :
    Enlisted executions r ((executions.map registering).foldl apply r) := by
  refine ⟨fun attempt => ?_, others_foldl_registering executions r⟩
  have hlast := (hasLast_foldl (executions.map registering) r).executions attempt
  rw [filterMap_registering] at hlast
  rw [SortedMap.filter_entries, SortedMap.filter_entries, hlast, lastOfAttempt]
  cases (executions.filter (attemptKey · = attempt)).getLast? <;> rfl

end Record

namespace RecordTable

/-- The rows of an object and a target go through changes one after the other. -/
theorem get?_foldl_changeRows (object deployment : String) (changes : List Record.Change)
    (t : RecordTable) (key : RecordKey) :
    (changes.foldl (fun t change => t.changeRows object deployment change) t).records.get? key =
      (t.records.get? key).map fun r =>
        if r.deployment == deployment && r.object == object then changes.foldl Record.apply r
        else r := by
  induction changes generalizing t with
  | nil => simp
  | cons change rest ih =>
    rw [List.foldl_cons, ih, get?_changeRows, Option.map_map]
    refine congrArg (Option.map · _) (funext fun r => ?_)
    by_cases h : (r.deployment == deployment && r.object == object) = true
    · simp only [Function.comp_apply, if_pos h, Record.deployment_apply, Record.object_apply,
        List.foldl_cons]
    · simp only [Function.comp_apply, if_neg h]

/-- Writes keep each record at its own key. -/
theorem Keyed.run {t : RecordTable} (h : t.Keyed) (writes : List RecordStore.Write) :
    (RecordStore.run writes t).2.Keyed := by
  induction writes generalizing t with
  | nil => exact h
  | cons w rest ih =>
    refine ih ?_
    cases hattempt : w.attempt t with
    | error fault => rwa [RecordStore.Write.run_of_error hattempt]
    | ok t' =>
      rw [RecordStore.Write.run_of_ok hattempt]
      cases w with
      | put r => exact Except.ok.inj hattempt ▸ h.put r
      | update key change => exact h.update hattempt

end RecordTable

namespace World

open Coordinator

section Registrations

variable {σ : Type} [RecordStore σ]

/-- Register executions one after the other for an object and a target: the answers, and the world
after them. -/
def registerEach (settings : CoordinatorSettings) (object deployment : String) :
    List String → World σ → List (Except CoordinatorError Nat) × World σ
  | [], w => ([], w)
  | execution :: rest, w =>
    let (answer, w') := ((coordinator settings).register execution object deployment).run w
    let (answers, last) := registerEach settings object deployment rest w'
    (answer :: answers, last)

/-- What registrations for an object and a target come to. -/
structure Enlisted (object deployment : String) (executions : List String) (w : World σ)
    (answers : List (Except CoordinatorError Nat)) (w' : World σ) : Prop where
  /-- All of them succeed on the same number of rows. -/
  answers : ∃ rows, answers = List.replicate executions.length (.ok rows)
  matching : ∀ key r, RecordStore.get? w.store key = .ok (some r) →
    r.deployment = deployment → r.object = object →
      ∃ r', RecordStore.get? w'.store key = .ok (some r') ∧ Record.Enlisted executions r r'
  others : ∀ key, (∀ r, RecordStore.get? w.store key = .ok (some r) →
      ¬ (r.deployment = deployment ∧ r.object = object)) →
    RecordStore.get? w'.store key = RecordStore.get? w.store key
  engine : w'.engine = w.engine
  busy : w'.busy = w.busy

end Registrations

theorem registerEach_cons {σ : Type} [RecordStore σ] (settings : CoordinatorSettings)
    (object deployment execution : String) (rest : List String) {w w' : World σ}
    {answer : Except CoordinatorError Nat}
    (h : ((coordinator settings).register execution object deployment).run w = (answer, w')) :
    registerEach settings object deployment (execution :: rest) w =
      (answer :: (registerEach settings object deployment rest w').1,
        (registerEach settings object deployment rest w').2) := by
  rw [registerEach, h]

/-- Registrations change the rows of a table one after the other. -/
theorem registerEach_eq (settings : CoordinatorSettings) (object deployment : String) :
    ∀ (executions : List String) {w : World RecordTable}, w.store.Keyed →
      registerEach settings object deployment executions w =
        (List.replicate executions.length (.ok (w.store.ofObject object deployment).length),
          { w with
            store := (executions.map Record.registering).foldl
              (fun t change => t.changeRows object deployment change) w.store })
  | [], w, _ => rfl
  | execution :: rest, w, hkeyed => by
      have hlength : ((w.store.changeRows object deployment
          (Record.registering execution)).ofObject object deployment).length =
            (w.store.ofObject object deployment).length := by
        rw [RecordTable.ofObject_changeRows, List.length_map]
      rw [registerEach_cons settings object deployment execution rest
          (run_changeRows settings w hkeyed object deployment (Record.registering execution)),
        registerEach_eq settings object deployment rest (hkeyed.changeRows _ _ _)]
      simp only [hlength, List.length_cons, List.replicate_succ, List.map_cons, List.foldl_cons]

theorem enlisted_registerEach (settings : CoordinatorSettings) (object deployment : String)
    (executions : List String) {w : World RecordTable} (hkeyed : w.store.Keyed) :
    Enlisted object deployment executions w (registerEach settings object deployment executions w).1
      (registerEach settings object deployment executions w).2 := by
  rw [registerEach_eq settings object deployment executions hkeyed]
  have hget : ∀ key, RecordStore.get? ((executions.map Record.registering).foldl
      (fun t change => t.changeRows object deployment change) w.store) key =
        .ok ((w.store.records.get? key).map fun r =>
          if r.deployment == deployment && r.object == object then
            (executions.map Record.registering).foldl Record.apply r
          else r) := fun key =>
    congrArg Except.ok (RecordTable.get?_foldl_changeRows _ _ _ _ key)
  refine ⟨⟨_, rfl⟩, fun key r hr hdeployment hobject => ?_, fun key hnone => ?_, rfl, rfl⟩
  · refine ⟨_, ?_, Record.enlisted_foldl executions r⟩
    rw [hget, Except.ok.inj hr]
    simp [hdeployment, hobject]
  · rw [hget]
    refine congrArg Except.ok ?_
    cases hr : w.store.records.get? key with
    | none => rfl
    | some r =>
      have hr := hnone r (congrArg Except.ok hr)
      rw [Option.map_some, if_neg (by simpa using hr)]

/-- Registrations in a world that mirrors another go as they do there. -/
theorem registerEach_mirrors (settings : CoordinatorSettings) (object deployment : String) :
    ∀ (executions : List String) {w : World ByteStore} {v : World RecordTable}, Mirrors w v →
      (registerEach settings object deployment executions w).1 =
          (registerEach settings object deployment executions v).1 ∧
        Mirrors (registerEach settings object deployment executions w).2
          (registerEach settings object deployment executions v).2
  | [], w, v, h => ⟨rfl, h⟩
  | execution :: rest, w, v, h => by
      obtain ⟨hanswer, hafter⟩ := (alike_stores settings).inStep.changeRows object deployment
        (Record.registering execution) w v h
      obtain ⟨hanswers, hlast⟩ := registerEach_mirrors settings object deployment rest hafter
      rw [registerEach_cons settings object deployment execution rest rfl,
        registerEach_cons settings object deployment execution rest rfl]
      exact ⟨List.cons_eq_cons.mpr ⟨hanswer, hanswers⟩, hlast⟩

/-- What registrations come to in one world they come to in a world that mirrors it. -/
theorem Enlisted.mirrors {object deployment : String} {executions : List String}
    {w w' : World ByteStore} {v v' : World RecordTable}
    {answers : List (Except CoordinatorError Nat)}
    (h : Enlisted object deployment executions v answers v') (hbefore : Mirrors w v)
    (hafter : Mirrors w' v') : Enlisted object deployment executions w answers w' where
  answers := h.answers
  matching key r hr hdeployment hobject := by
    rw [hbefore.agree.get?] at hr
    obtain ⟨r', hr', henlisted⟩ := h.matching key r hr hdeployment hobject
    exact ⟨r', (hafter.agree.get? key).trans hr', henlisted⟩
  others key hnone := by
    rw [hafter.agree.get?, hbefore.agree.get?]
    exact h.others key fun r hr => hnone r ((hbefore.agree.get? key).trans hr)
  engine := hafter.engine.trans (h.engine.trans hbefore.engine.symm)
  busy := hafter.busy.trans (h.busy.trans hbefore.busy.symm)

/-- The attempt key of an execution is the part of its id before the last one, or all of it, has no
colon, and does not depend on the last part.  Registrations for one object and target, on a table of
any records or on a byte store of plain names, leave each matching record with one entry for each
attempt key among them, with the execution registered last under it. -/
theorem attempts_keepLast (settings : CoordinatorSettings) (writes : List RecordStore.Write)
    (engine : Engine) (busy : List String) (object deployment : String)
    (executions : List String) :
    (∀ execution parts, Parts ':' execution parts ↔ segments ':' execution = parts) ∧
      (∀ execution, segments ':' execution = [execution] ∧ attemptKey execution = execution ∨
        ∃ before last, segments ':' execution = before ++ [attemptKey execution, last]) ∧
      (∀ execution, ':' ∉ (attemptKey execution).toList) ∧
      (∀ before last other, ':' ∉ last.toList → ':' ∉ other.toList →
        attemptKey (before ++ ":" ++ last) = attemptKey (before ++ ":" ++ other)) ∧
      Enlisted object deployment executions (filled RecordTable writes engine busy)
        (registerEach settings object deployment executions
          (filled RecordTable writes engine busy)).1
        (registerEach settings object deployment executions
          (filled RecordTable writes engine busy)).2 ∧
      ((∀ x ∈ writes, x.Plain) →
        Enlisted object deployment executions (filled ByteStore writes engine busy)
          (registerEach settings object deployment executions
            (filled ByteStore writes engine busy)).1
          (registerEach settings object deployment executions
            (filled ByteStore writes engine busy)).2) := by
  have hkeyed : (filled RecordTable writes engine busy).store.Keyed :=
    RecordTable.keyed_empty.run writes
  have htable := enlisted_registerEach settings object deployment executions hkeyed
  refine ⟨fun _ _ => segments_eq_iff.symm, segments_attemptKey, colon_not_mem_attemptKey,
    fun before _ _ => attemptKey_append before, htable, fun hplain => ?_⟩
  have hbefore := mirrors_filled hplain engine busy
  obtain ⟨hanswers, hafter⟩ := registerEach_mirrors settings object deployment executions hbefore
  rw [hanswers]
  exact htable.mirrors hbefore hafter

end World

end Rollout
