import Rollout.Proofs.Coordinator.Handling
import Rollout.Proofs.Retry
import Rollout.Proofs.Store.Attributes

/-!
# Programs that fail

A program of the coordinator that fails leaves the record store as it was.  Its checks come before
its first write, and a write cannot fail then: it goes to the key of a record that the store has just
listed, and a store in which listed records stand at their own keys (`RecordStore.Listable`) has a
record there, before and after other writes.

Both facts are about single calls on a world (`World.run_askStore`), and are put together along the
programs, stage by stage (`World.Spares`).  A byte store is listable if its rows are *filed*: a row
that holds a record stands under the key of the record.  Its writes keep it so
(`ByteStore.Filed.run`), whatever the names of the records are; rows that hold no record are allowed.
-/

namespace Rollout

open RecordStore

/-! ## Filed rows -/

namespace ByteStore

/-- A row that holds a record stands under the key of the record. -/
def Filed (s : ByteStore) : Prop :=
  ∀ primary text r, s.rows.get? primary = some text → decode text = .ok r →
    primary = ByteKey.ofRecord r.key

theorem filed_empty : Filed empty := by
  intro primary text r hrow
  cases hrow

theorem rows_of_put {s s' : ByteStore} {r : Record} (h : s.put r = .ok s') :
    s'.rows = s.rows.insert (ByteKey.ofRecord r.key) r.text := by
  rw [put] at h
  cases hrow : s.rows.get? (ByteKey.ofRecord r.key) with
  | none =>
    rw [hrow] at h
    cases h
    rfl
  | some text =>
    rw [hrow] at h
    cases hdecode : decode text with
    | error e =>
      simp only [hdecode] at h
      cases h
    | ok previous =>
      simp only [hdecode] at h
      cases h
      rfl

theorem Filed.put {s s' : ByteStore} (h : s.Filed) {r : Record} (hput : s.put r = .ok s') :
    s'.Filed := by
  intro primary text r' hrow hdecode
  rw [rows_of_put hput, SortedMap.get?_insert] at hrow
  by_cases hkey : primary = ByteKey.ofRecord r.key
  · rw [if_pos hkey] at hrow
    rw [← Option.some.inj hrow, decode_text] at hdecode
    rw [hkey, Except.ok.inj hdecode]
  · rw [if_neg hkey] at hrow
    exact h primary text r' hrow hdecode

theorem Filed.store {s : ByteStore} (h : s.Filed) (u : Update) : (u.store s).Filed := by
  intro primary text r hrow hdecode
  rw [store_eq] at hrow
  have hrow : (s.rows.modify (ByteKey.ofRecord u.key) (rewrite u.change)).get? primary =
      some text := hrow
  rw [SortedMap.get?_modify] at hrow
  by_cases hkey : primary = ByteKey.ofRecord u.key
  · rw [if_pos hkey] at hrow
    obtain ⟨previous, hprevious, rfl⟩ := Option.map_eq_some_iff.mp hrow
    rw [decode_rewrite] at hdecode
    cases hold : decode previous with
    | error e =>
      rw [hold] at hdecode
      cases hdecode
    | ok old =>
      rw [hold] at hdecode
      rw [← Except.ok.inj hdecode, Record.key_apply]
      exact h primary previous old hprevious hold
  · rw [if_neg hkey] at hrow
    exact h primary text r hrow hdecode

theorem Filed.run_write {s : ByteStore} (h : s.Filed) (w : Write) : (w.run s).2.Filed := by
  cases w with
  | put r =>
    cases hattempt : (Write.put r).attempt s with
    | error e =>
      rw [Write.run_of_error hattempt]
      exact h
    | ok s' =>
      rw [Write.run_of_ok hattempt]
      exact h.put hattempt
  | update key change => exact h.store ⟨key, change⟩

/-- Writes keep rows filed. -/
theorem Filed.run {s : ByteStore} (h : s.Filed) (writes : List Write) :
    (RecordStore.run writes s).2.Filed := by
  induction writes generalizing s with
  | nil => exact h
  | cons w rest ih => exact ih (h.run_write w)

theorem exists_of_mem_mapM_decode {texts : List String} : ∀ {records : List Record},
    texts.mapM decode = .ok records → ∀ r ∈ records, ∃ text ∈ texts, decode text = .ok r := by
  induction texts with
  | nil =>
    intro records h r hr
    cases h
    cases hr
  | cons text rest ih =>
    intro records h r hr
    rw [List.mapM_cons] at h
    cases hfirst : decode text with
    | error e =>
      rw [hfirst] at h
      cases h
    | ok first =>
      cases hothers : rest.mapM decode with
      | error e =>
        rw [hfirst, hothers] at h
        cases h
      | ok others =>
        rw [hfirst, hothers] at h
        cases h
        rcases List.mem_cons.mp hr with rfl | hr
        · exact ⟨text, List.mem_cons_self, hfirst⟩
        · obtain ⟨text', htext', hdecode⟩ := ih hothers r hr
          exact ⟨text', List.mem_cons_of_mem _ htext', hdecode⟩

end ByteStore

/-! ## Listed records -/

namespace RecordStore

/-- Listed records stand at their keys. -/
def Listable {σ : Type} [RecordStore σ] (s : σ) : Prop :=
  ∀ object deployment records, RecordStore.ofObject s object deployment = .ok records →
    ∀ r ∈ records, occupied s r.key = .ok true

end RecordStore

/-- Where a record stands, a change of it is made. -/
theorem RecordStore.exists_update_of_occupied {σ : Type} [RecordStore σ] [Targeted σ] {s : σ}
    {key : RecordKey} (change : Record.Change) (h : occupied s key = .ok true) :
    ∃ s', RecordStore.update key change s = .ok s' ∧ Update.store s ⟨key, change⟩ = s' := by
  have hanswer := Targeted.answer s ⟨key, change⟩
  rw [h] at hanswer
  cases hattempt : (Update.write ⟨key, change⟩).attempt s with
  | error e =>
    rw [Write.run_of_error hattempt] at hanswer
    cases hanswer
  | ok s' => exact ⟨s', hattempt, by rw [Update.store, Write.run_of_ok hattempt]⟩

theorem ByteStore.Filed.listable {s : ByteStore} (h : s.Filed) : Listable s := by
  intro object deployment records hrecords r hr
  obtain ⟨text, htext, hdecode⟩ := exists_of_mem_mapM_decode hrecords r hr
  obtain ⟨primary, -, hrow⟩ := List.mem_filterMap.mp htext
  obtain rfl := h primary text r hrow hdecode
  show (s.get? r.key).map Option.isSome = _
  rw [ByteStore.get?, hrow]
  simp only [hdecode]
  rfl

/-! ## Programs -/

namespace World

open Coordinator

variable {σ α β : Type}

/-- If the program fails, it leaves the store as it is in the given world. -/
def Spares (x : Coordinating (World σ) α) (w : World σ) : Prop :=
  FailsIn (fun w' => w'.store = w.store) x w

/-- What leaves the store alone may come first. -/
theorem Spares.bind {x : Coordinating (World σ) α} {f : α → Coordinating (World σ) β} {w : World σ}
    (hx : Leaves World.store x) (hf : ∀ a w', w'.store = w.store → Spares (f a) w') :
    Spares (x >>= f) w :=
  hx.failsIn_bind (fun _ hsame => hsame) fun a w' hsame e w'' hrun =>
    (hf a w' hsame e w'' hrun).trans hsame

variable [RecordStore σ] (settings : CoordinatorSettings)

/-- A call with a final outcome is made once. -/
theorem run_askStore {call : Call (World σ) StoreError α} {r : Except StoreError α}
    {w w' : World σ} (hfinal : Final r)
    (h : call settings.retry.attemptTimeout w = (some r, w')) :
    ((coordinator settings).askStore call).run w = (r.mapError .store, w') :=
  run_bind_eq (retry_of_final hfinal (RetryPolicy.attempt_of_some h))

variable [Steady σ]

theorem run_ofObject (object deployment : String) (w : World σ) :
    ((coordinator settings).askStore (collaborators.ofObject object deployment)).run w =
      ((RecordStore.ofObject w.store object deployment).mapError .store, w) := by
  refine run_askStore settings ?_ rfl
  cases hanswer : RecordStore.ofObject w.store object deployment with
  | ok records => trivial
  | error e => exact Steady.ofObject hanswer

theorem run_latest (deployment : String) (limit : Nat) (w : World σ) :
    ((coordinator settings).askStore (collaborators.latest deployment limit)).run w =
      ((RecordStore.latest w.store deployment limit).mapError .store, w) := by
  refine run_askStore settings ?_ rfl
  cases hanswer : RecordStore.latest w.store deployment limit with
  | ok records => trivial
  | error e => exact Steady.latest hanswer

theorem leaves_ofObject (object deployment : String) :
    Leaves World.store ((coordinator (σ := σ) settings).askStore
      (collaborators.ofObject object deployment)) :=
  .of_run (run_ofObject settings object deployment) fun _ => rfl

/-- A lookup changes nothing. -/
theorem leaves_lookup (object deployment : String) :
    Leaves World.store ((coordinator (σ := σ) settings).lookup object deployment) := by
  refine (leaves_ofObject settings object deployment).bind fun records => ?_
  cases records.find? fun r => !r.isTemplate
  · exact fun _ => rfl
  · exact fun _ => rfl

/-- Admission stops executions and leaves the store alone. -/
theorem leaves_admission (current workflow deployment : String) :
    Leaves World.store ((coordinator (σ := σ) settings).admission current workflow deployment) := by
  have hrunning : Leaves World.store ((coordinator (σ := σ) settings).askControl
      (collaborators.runningOf workflow)) :=
    .of_run (fun _ => run_askControl_of_ok rfl) fun _ => rfl
  refine hrunning.bind fun running => ?_
  dsimp only
  split
  next => exact fun _ => rfl
  next =>
    refine Leaves.bind (.of_run (run_latest settings deployment settings.window) fun _ => rfl) ?_
    exact fun latest => .of_run (run_stopAll settings _) fun _ => rfl

omit [Steady σ] in
/-- Nor does the stop of an execution whose target is busy concern the store. -/
theorem leaves_abortIfBusy (t : Trigger) (target : String) :
    Leaves World.store ((coordinator (σ := σ) settings).abortIfBusy target t.execution) := by
  intro w
  rw [run_abortIfBusy settings t w target]
  split <;> rfl

variable [Targeted σ]

omit [Steady σ] in
/-- Changes at keys where there are records are made. -/
theorem run_updateAll_of_occupied (change : Record.Change) : ∀ (keys : List RecordKey)
    (w : World σ), (∀ key ∈ keys, occupied w.store key = .ok true) →
      ∃ s, ((coordinator settings).updateAll change keys).run w = (.ok (), { w with store := s })
  | [], w, _ => ⟨w.store, rfl⟩
  | key :: rest, w, h => by
      obtain ⟨hkey, hrest⟩ := List.forall_mem_cons.mp h
      obtain ⟨s, hupdate, hstore⟩ := exists_update_of_occupied change hkey
      have hcall := run_askStore_update_of_ok settings hupdate
      obtain ⟨s', hrun⟩ := run_updateAll_of_occupied change rest { w with store := s }
        fun other hother => by
          rw [← hstore, ← hrest other hother]
          exact occupied_updates [⟨key, change⟩] w.store other
      exact ⟨s', (run_bind_ok hcall).trans hrun⟩

variable {settings} {w : World σ}

/-- A change of listed rows fails only before the first of them. -/
theorem spares_changeRows (hlistable : Listable w.store) (object deployment : String)
    (change : Record.Change) :
    Spares ((coordinator settings).changeRows object deployment change) w := by
  refine ((leaves_ofObject settings object deployment).failsIn fun _ hsame => hsame).bind
    fun listed w₁ hlisted => ?_
  have hanswer := (run_ofObject settings object deployment w).symm.trans hlisted
  cases hrecords : RecordStore.ofObject w.store object deployment with
  | error fault =>
    rw [hrecords] at hanswer
    cases hanswer
  | ok records =>
    rw [hrecords] at hanswer
    cases hanswer
    obtain ⟨s, hupdates⟩ := run_updateAll_of_occupied settings change
      (listed.map Record.key) w fun key hkey => by
        obtain ⟨r, hr, rfl⟩ := List.mem_map.mp hkey
        exact hlistable object deployment listed hrecords r hr
    exact failsIn_of_ok (run_bind_ok hupdates)

theorem spares_handle (hlistable : Listable w.store) (t : Trigger) :
    Spares ((coordinator settings).handle t) w := by
  refine Spares.bind (leaves_lookup settings t.object t.deployment) fun record w₁ h₁ => ?_
  refine Spares.bind (leaves_admission settings t.execution t.workflow t.deployment)
    fun superseded w₂ h₂ => ?_
  have hsame : w₂.store = w.store := h₂.trans h₁
  have hlistable : Listable w₂.store := hsame ▸ hlistable
  refine FailsIn.bind (spares_changeRows hlistable t.object t.deployment _) fun rows w₃ _ => ?_
  have habort := run_abortIfBusy settings t w₃ record.stack
  split at habort
  · exact failsIn_of_ok (run_bind_ok habort)
  · exact failsIn_of_ok (run_bind_ok habort)

end World

end Rollout
