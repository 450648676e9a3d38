import Rollout.Proofs.Store.Contract

/-!
# Changes of single attributes

An update is for one attribute of one record, its *address*: the execution under an attempt key, the
two attributes of an error together, or the status of the plan.  Updates of different addresses do not
meet, whatever the order they are made in.

On records this is `Record.HasLast`: after changes made one after the other, each attribute has the
value of the last change for it, or the one it had before.  A store writes an update at one row and
leaves the other rows alone (`SortedMap.modify`), in a record table as in a byte store, where a row is
decoded, changed and encoded again (`ByteStore.rewrite`).  What single updates of both stores have in
common is `RecordStore.Targeted`.

From single updates it carries over to runs of them: a record ends up with the last change for each
attribute (`get?_runUpdates`), and an update may change places with a neighbour of another address, so
the order counts only among updates of one address (`foldl_eq_of_filter_eq`).
`RecordStore.updates_keptApart` is the result for both stores.
-/

namespace Rollout

/-! ## Changes of one record -/

namespace Record

/-- What a change is for: the execution under an attempt key, the attributes of an error, or the
status of the plan. -/
inductive Attribute where
  | execution (attempt : String)
  | error
  | planStatus
deriving DecidableEq

namespace Change

/-- The attribute that a change is for. -/
def target : Change → Attribute
  | .setExecution attempt _ => .execution attempt
  | .setError _ _ => .error
  | .setPlanStatus _ => .planStatus

/-- The execution that a change puts under an attempt key. -/
def execution? (attempt : String) : Change → Option String
  | .setExecution written execution => if written = attempt then some execution else none
  | _ => none

/-- The message and the code that a change sets. -/
def error? : Change → Option (String × String)
  | .setError message code => some (message, code)
  | _ => none

/-- The status that a change sets. -/
def planStatus? : Change → Option String
  | .setPlanStatus status => some status
  | _ => none

end Change

/-- The attributes of a record that no change is for. -/
def fixedPart (r : Record) : Record :=
  { r with executions := .empty, errorMessage := none, errorCode := none, planStatus := none }

/-- Each attribute of the record after the changes has the value of the last change for it, or the
one of the record before them. -/
structure HasLast (changes : List Change) (r r' : Record) : Prop where
  executions : ∀ attempt, r'.executions.get? attempt =
    (changes.filterMap (Change.execution? attempt)).getLast?.or (r.executions.get? attempt)
  /-- Message and code are of one change. -/
  error : (r'.errorMessage, r'.errorCode) =
    match (changes.filterMap Change.error?).getLast? with
    | some (message, code) => (some message, some code)
    | none => (r.errorMessage, r.errorCode)
  planStatus : r'.planStatus =
    (changes.filterMap Change.planStatus?).getLast?.or r.planStatus
  /-- Nothing else changes. -/
  others : r'.fixedPart = r.fixedPart

theorem getLast?_cons_or {α : Type} (first : α) (rest : List α) (o : Option α) :
    (first :: rest).getLast?.or o = rest.getLast?.or (some first) := by
  cases rest with
  | nil => rfl
  | cons a rest =>
    rw [List.getLast?_cons_cons]
    simp [List.getLast?_cons]

/-- Changes made one after the other leave the last one for each attribute. -/
theorem hasLast_foldl (changes : List Change) (r : Record) :
    HasLast changes r (changes.foldl apply r) := by
  induction changes generalizing r with
  | nil => exact ⟨fun _ => rfl, rfl, rfl, rfl⟩
  | cons change rest ih =>
    obtain ⟨hexecutions, herror, hplanStatus, hothers⟩ := ih (r.apply change)
    rw [List.foldl_cons]
    refine ⟨fun attempt => ?_, ?_, ?_, ?_⟩
    · rw [hexecutions attempt]
      cases change with
      | setExecution written execution =>
        by_cases h : written = attempt
        · simp [apply, Change.execution?, h, SortedMap.get?_insert, getLast?_cons_or]
        · simp [apply, Change.execution?, h, SortedMap.get?_insert, Ne.symm h]
      | setError message code => rfl
      | setPlanStatus status => rfl
    · rw [herror]
      cases change with
      | setExecution written execution => rfl
      | setError message code =>
        have hset : Change.error? (.setError message code) = some (message, code) := rfl
        rw [List.filterMap_cons_some hset, List.getLast?_cons]
        cases (rest.filterMap Change.error?).getLast? <;> rfl
      | setPlanStatus status => rfl
    · rw [hplanStatus]
      cases change with
      | setExecution written execution => rfl
      | setError message code => rfl
      | setPlanStatus status => simp [apply, Change.planStatus?, getLast?_cons_or]
    · rw [hothers]
      cases change <;> rfl

/-- Changes of different attributes may be made in either order. -/
theorem apply_comm {change other : Change} (h : change.target ≠ other.target) (r : Record) :
    (r.apply change).apply other = (r.apply other).apply change := by
  cases change with
  | setExecution attempt execution =>
    cases other with
    | setExecution attempt' execution' =>
      have hattempt : attempt ≠ attempt' := fun heq => h (congrArg Attribute.execution heq)
      have hinsert : (r.executions.insert attempt execution).insert attempt' execution' =
          (r.executions.insert attempt' execution').insert attempt execution := by
        refine SortedMap.ext_get? fun key => ?_
        simp only [SortedMap.get?_insert]
        by_cases hkey : key = attempt
        · simp [hkey, hattempt]
        · simp [hkey]
      simp only [apply, hinsert]
    | setError message code => rfl
    | setPlanStatus status => rfl
  | setError message code =>
    cases other with
    | setExecution attempt execution => rfl
    | setError message' code' => exact absurd rfl h
    | setPlanStatus status => rfl
  | setPlanStatus status =>
    cases other with
    | setExecution attempt execution => rfl
    | setError message code => rfl
    | setPlanStatus status' => exact absurd rfl h

end Record

/-! ## Updates -/

namespace RecordStore

/-- A change with the key of its record. -/
structure Update where
  key : RecordKey
  change : Record.Change

namespace Update

/-- The attribute that an update is for, in its record. -/
def address (u : Update) : RecordKey × Record.Attribute := (u.key, u.change.target)

/-- The update as a write. -/
def write (u : Update) : Write := .update u.key u.change

/-- The store after an update. -/
def store {σ : Type} [RecordStore σ] (s : σ) (u : Update) : σ := (u.write.run s).2

end Update

/-- The changes of one record among updates, in their order. -/
def changesAt (key : RecordKey) (updates : List Update) : List Record.Change :=
  (updates.filter fun u => u.key = key).map Update.change

/-- Whether a record stands at a key, or why that cannot be told. -/
def occupied {σ : Type} [RecordStore σ] (s : σ) (key : RecordKey) : Except StoreError Bool :=
  (RecordStore.get? s key).map Option.isSome

/-- The keys of the records that the listing for an object and a target gives. -/
def keysOfObject {σ : Type} [RecordStore σ] (s : σ) (object deployment : String) :
    Except StoreError (List RecordKey) :=
  (RecordStore.ofObject s object deployment).map (List.map Record.key)

/-- What an update is answered, by whether a record stands at its key. -/
def Update.answer (u : Update) : Except StoreError Bool → Except StoreError Unit
  | .ok true => .ok ()
  | .ok false => .error (.recordNotFound u.key)
  | .error e => .error e

/-- Stores in which an update changes the record at its key and nothing else. -/
class Targeted (σ : Type) [RecordStore σ] : Prop where
  answer : ∀ (s : σ) (u : Update), (u.write.run s).1 = u.answer (occupied s u.key)
  get?_store : ∀ (s : σ) (u : Update) (key : RecordKey), RecordStore.get? (u.store s) key =
    if key = u.key then (RecordStore.get? s key).map (Option.map (·.apply u.change))
    else RecordStore.get? s key
  keysOfObject_store : ∀ (s : σ) (u : Update) (object deployment : String),
    keysOfObject (u.store s) object deployment = keysOfObject s object deployment
  /-- Updates of different attributes may change places. -/
  store_comm : ∀ (s : σ) {u v : Update}, u.address ≠ v.address →
    v.store (u.store s) = u.store (v.store s)

end RecordStore

open RecordStore

namespace RecordTable

/-- An update changes the record at its key, if there is one. -/
theorem store_eq (t : RecordTable) (u : Update) :
    u.store t = ⟨t.records.modify u.key (·.apply u.change)⟩ := by
  cases hget : t.records.get? u.key with
  | none =>
    have hrefused : u.write.attempt t = .error (.recordNotFound u.key) := by
      show t.update u.key u.change = _
      rw [update, hget]
    rw [Update.store, Write.run_of_error hrefused, SortedMap.modify_eq_self]
    intro r hr
    rw [hget] at hr
    cases hr
  | some r =>
    have hmade : u.write.attempt t = .ok ⟨t.records.insert u.key (r.apply u.change)⟩ :=
      update_of_get? hget u.change
    rw [Update.store, Write.run_of_ok hmade, SortedMap.modify_of_get? hget]

theorem answer_eq (t : RecordTable) (u : Update) :
    (u.write.run t).1 = u.answer (occupied t u.key) := by
  have hattempt : u.write.attempt t = t.update u.key u.change := rfl
  have hoccupied : occupied t u.key = .ok (t.records.get? u.key).isSome := rfl
  rw [Write.run, hattempt, hoccupied, update]
  cases t.records.get? u.key <;> rfl

/-- The listing for an object gives the same keys. -/
theorem ofObject_modify (t : RecordTable) (key : RecordKey) (change : Record.Change)
    (object deployment : String) :
    ((RecordTable.mk (t.records.modify key (·.apply change))).ofObject object deployment).map
        Record.key =
      (t.ofObject object deployment).map Record.key := by
  let changed : RecordKey × Record → Record := fun e => if e.1 = key then e.2.apply change else e.2
  let listed : Record → Bool := fun r => r.deployment == deployment && r.object == object
  have hlisted : listed ∘ changed = listed ∘ Prod.snd := by
    funext e
    simp only [Function.comp, listed, changed]
    split <;> simp
  have hkey : Record.key ∘ changed = Record.key ∘ Prod.snd := by
    funext e
    simp only [Function.comp, changed]
    split <;> simp
  calc ((RecordTable.mk (t.records.modify key (·.apply change))).ofObject object deployment).map
        Record.key
      = ((t.records.entries.map changed).filter listed).map Record.key := by
        simp only [ofObject, SortedMap.values, SortedMap.modify, List.map_map]
        rfl
    _ = ((t.records.entries.map Prod.snd).filter listed).map Record.key := by
        simp only [List.filter_map, List.map_map, hlisted, hkey]

instance : Targeted RecordTable where
  answer := answer_eq
  get?_store t u key := by
    rw [store_eq]
    show Except.ok ((t.records.modify u.key (·.apply u.change)).get? key) = _
    rw [SortedMap.get?_modify]
    split <;> rfl
  keysOfObject_store t u object deployment := by
    rw [store_eq]
    exact congrArg Except.ok (ofObject_modify t u.key u.change object deployment)
  store_comm t {u v} h := by
    simp only [store_eq]
    refine congrArg RecordTable.mk (SortedMap.modify_comm t.records ?_)
    by_cases hkey : u.key = v.key
    · right
      refine Record.apply_comm fun htarget => h ?_
      rw [Update.address, Update.address, hkey, htarget]
    · exact .inl hkey

end RecordTable

namespace ByteStore

/-! ## Rows of a byte store -/

/-- A row after a change: a text that holds a record gives way to the text of the changed one. -/
def rewrite (change : Record.Change) (text : String) : String :=
  match decode text with
  | .ok r => (r.apply change).text
  | .error _ => text

theorem decode_rewrite (change : Record.Change) (text : String) :
    decode (rewrite change text) = (decode text).map (·.apply change) := by
  rw [rewrite]
  cases hdecode : decode text with
  | ok r => exact decode_text (r.apply change)
  | error e => exact hdecode

theorem rewrite_comm {change other : Record.Change} (h : change.target ≠ other.target)
    (text : String) :
    rewrite other (rewrite change text) = rewrite change (rewrite other text) := by
  have hchange := decode_rewrite change text
  have hother := decode_rewrite other text
  cases hdecode : decode text with
  | ok r =>
    rw [hdecode] at hchange hother
    rw [rewrite, hchange, rewrite.eq_def change (rewrite other text), hother]
    exact congrArg Record.text (Record.apply_comm h r)
  | error e =>
    simp only [rewrite, hdecode]

/-- An update changes the row at its key, if it holds a record. -/
theorem store_eq (s : ByteStore) (u : Update) :
    u.store s = { s with
      rows := s.rows.modify (ByteKey.ofRecord u.key) (rewrite u.change) } := by
  have hattempt : u.write.attempt s = s.update u.key u.change := rfl
  have hkept : ∀ e, s.update u.key u.change = .error e →
      (∀ text, s.rows.get? (ByteKey.ofRecord u.key) = some text → rewrite u.change text = text) →
      u.store s = { s with
        rows := s.rows.modify (ByteKey.ofRecord u.key) (rewrite u.change) } := by
    intro e hrefused hrow
    rw [Update.store, Write.run_of_error (hattempt.trans hrefused), SortedMap.modify_eq_self hrow]
  cases hrow : s.rows.get? (ByteKey.ofRecord u.key) with
  | none =>
    refine hkept (.recordNotFound u.key) ?_ (by simp [hrow])
    rw [update, hrow]
    rfl
  | some text =>
    cases hdecode : decode text with
    | error e =>
      refine hkept e ?_ ?_
      · rw [update, hrow]
        simp only [hdecode]
        rfl
      · intro text' htext'
        obtain rfl : text = text' := Option.some.inj (hrow.symm.trans htext')
        simp only [rewrite, hdecode]
    | ok r =>
      have hmade : s.update u.key u.change =
          .ok { s with rows := s.rows.insert (ByteKey.ofRecord u.key) (r.apply u.change).text } := by
        rw [update, hrow]
        simp only [hdecode]
        rfl
      rw [Update.store, Write.run_of_ok (hattempt.trans hmade), SortedMap.modify_of_get? hrow]
      simp only [rewrite, hdecode]

theorem answer_eq (s : ByteStore) (u : Update) :
    (u.write.run s).1 = u.answer (occupied s u.key) := by
  have hattempt : u.write.attempt s = s.update u.key u.change := rfl
  have hoccupied : occupied s u.key = (s.get? u.key).map Option.isSome := rfl
  rw [Write.run, hattempt, hoccupied, update, get?]
  cases s.rows.get? (ByteKey.ofRecord u.key) with
  | none => rfl
  | some text =>
    simp only
    cases decode text <;> rfl

/-- The keys in listed rows are read row by row. -/
theorem map_key_mapM_decode (texts : List String) :
    (texts.mapM decode).map (List.map Record.key) =
      texts.mapM fun text => (decode text).map Record.key := by
  induction texts with
  | nil => rfl
  | cons text rest ih =>
    rw [List.mapM_cons, List.mapM_cons, ← ih]
    cases decode text with
    | error e => rfl
    | ok r => cases rest.mapM decode <;> rfl

theorem key_decode_rewrite (change : Record.Change) (text : String) :
    (decode (rewrite change text)).map Record.key = (decode text).map Record.key := by
  rw [decode_rewrite]
  cases decode text with
  | ok r => exact congrArg Except.ok (Record.key_apply r change)
  | error e => rfl

/-- A changed row is listed where it was, with the same key in it. -/
theorem keysOfObject_modify (s : ByteStore) (primary : ByteKey) (change : Record.Change)
    (object deployment : String) :
    keysOfObject { s with rows := s.rows.modify primary (rewrite change) } object deployment =
      keysOfObject s object deployment := by
  show ((List.filterMap _ (scan s.index _)).mapM decode).map _ = ((List.filterMap _ _).mapM decode).map _
  rw [map_key_mapM_decode, map_key_mapM_decode]
  induction scan s.index (ByteKey.ofObject object deployment) with
  | nil => rfl
  | cons key rest ih =>
    have hrow : (s.rows.modify primary (rewrite change)).get? key = s.rows.get? key ∨
        (s.rows.modify primary (rewrite change)).get? key =
          (s.rows.get? key).map (rewrite change) := by
      rw [SortedMap.get?_modify]
      split
      · exact .inr rfl
      · exact .inl rfl
    cases hget : s.rows.get? key with
    | none =>
      have hnone : (s.rows.modify primary (rewrite change)).get? key = none := by
        simp [hget]
      rw [List.filterMap_cons_none hnone, List.filterMap_cons_none hget, ih]
    | some text =>
      rcases hrow with hsame | hchanged
      · rw [hget] at hsame
        rw [List.filterMap_cons_some hsame, List.filterMap_cons_some hget, List.mapM_cons,
          List.mapM_cons, ih]
      · rw [hget, Option.map_some] at hchanged
        rw [List.filterMap_cons_some hchanged, List.filterMap_cons_some hget, List.mapM_cons,
          List.mapM_cons, ih, key_decode_rewrite]

instance : Targeted ByteStore where
  answer := answer_eq
  get?_store s u key := by
    rw [store_eq]
    have hkeys : ByteKey.ofRecord key = ByteKey.ofRecord u.key ↔ key = u.key :=
      ⟨fun h => ByteKey.ofRecord_injective h, congrArg ByteKey.ofRecord⟩
    show get? _ key = if key = u.key then (s.get? key).map _ else s.get? key
    simp only [get?, SortedMap.get?_modify, hkeys]
    by_cases hkey : key = u.key
    · simp only [if_pos hkey]
      cases s.rows.get? (ByteKey.ofRecord key) with
      | none => rfl
      | some text =>
        simp only [Option.map_some, decode_rewrite]
        cases decode text <;> rfl
    · simp only [if_neg hkey]
  keysOfObject_store s u object deployment := by
    rw [store_eq]
    exact keysOfObject_modify s _ u.change object deployment
  store_comm s {u v} h := by
    simp only [store_eq]
    refine congrArg (ByteStore.mk · s.index) (SortedMap.modify_comm s.rows ?_)
    by_cases hkey : u.key = v.key
    · right
      refine rewrite_comm fun htarget => h ?_
      rw [Update.address, Update.address, hkey, htarget]
    · exact .inl fun heq => hkey (ByteKey.ofRecord_injective heq)

end ByteStore

/-! ## Runs of updates -/

/-- A step after steps of other addresses may come before them. -/
theorem foldl_step_comm {α β γ : Type} {address : α → γ} {step : β → α → β}
    (hcomm : ∀ b {x y}, address x ≠ address y → step (step b x) y = step (step b y) x)
    {x : α} {before : List α} (hbefore : ∀ y ∈ before, address y ≠ address x) (b : β) :
    step (before.foldl step b) x = before.foldl step (step b x) := by
  induction before generalizing b with
  | nil => rfl
  | cons y rest ih =>
    obtain ⟨hy, hrest⟩ := List.forall_mem_cons.mp hbefore
    rw [List.foldl_cons, List.foldl_cons, ih hrest, hcomm b hy]

/-- Steps that may change places with steps of another address give one result for all orders in
which the steps of each address stand alike. -/
theorem foldl_eq_of_filter_eq {α β γ : Type} [DecidableEq γ] {address : α → γ} {step : β → α → β}
    (hcomm : ∀ b {x y}, address x ≠ address y → step (step b x) y = step (step b y) x)
    {xs ys : List α} (h : ∀ a, xs.filter (address · = a) = ys.filter (address · = a)) (b : β) :
    xs.foldl step b = ys.foldl step b := by
  induction xs generalizing ys b with
  | nil =>
    cases ys with
    | nil => rfl
    | cons y rest =>
      have := h (address y)
      simp at this
  | cons x rest ih =>
    -- the first step of its address stands somewhere in the other list, and moves to its front
    have hx : ys.filter (address · = address x) = x :: rest.filter (address · = address x) := by
      rw [← h, List.filter_cons_of_pos (by simp)]
    obtain ⟨before, behind, rfl, hbefore, -, hbehind⟩ := List.filter_eq_cons_iff.mp hx
    have hbefore : ∀ y ∈ before, address y ≠ address x := by simpa using hbefore
    have hrest : ∀ a, rest.filter (address · = a) = (before ++ behind).filter (address · = a) := by
      intro a
      have ha := h a
      rw [List.filter_append] at ha ⊢
      by_cases hax : address x = a
      · subst hax
        have hnone : before.filter (address · = address x) = [] := by simpa using hbefore
        rw [hnone, ← hbehind, List.nil_append]
      · rwa [List.filter_cons_of_neg (by simpa using hax),
          List.filter_cons_of_neg (by simpa using hax)] at ha
    rw [List.foldl_cons, ih hrest, List.foldl_append, List.foldl_append, List.foldl_cons,
      foldl_step_comm hcomm hbefore]

namespace RecordStore

variable {σ : Type} [RecordStore σ]

/-- The store after updates. -/
theorem run_updates (updates : List Update) (s : σ) :
    (run (updates.map Update.write) s).2 = updates.foldl Update.store s := by
  induction updates generalizing s with
  | nil => rfl
  | cons u rest ih => exact ih (u.store s)

/-- An update that is refused leaves the store alone. -/
theorem Update.run_of_error {s : σ} {u : Update} {e : StoreError}
    (h : (u.write.run s).1 = .error e) : u.write.run s = (.error e, s) := by
  cases hattempt : u.write.attempt s with
  | ok s' =>
    rw [Write.run_of_ok hattempt] at h
    cases h
  | error e' =>
    rw [Write.run_of_error hattempt] at h ⊢
    rw [Except.error.inj h]

/-- An update that is made again leaves the store alone. -/
theorem Update.store_again [Steady σ] (s : σ) (u : Update) : u.store (u.store s) = u.store s := by
  cases hattempt : u.write.attempt s with
  | ok s' =>
    have hagain : u.write.attempt s' = .ok s' := Steady.update_again hattempt
    rw [store, store, Write.run_of_ok hattempt, Write.run_of_ok hagain]
  | error e =>
    have hstore : u.store s = s := by rw [store, Write.run_of_error hattempt]
    rw [hstore, hstore]

variable [Targeted σ]

/-- A record has gone through the changes of its key, one after the other. -/
theorem get?_updates (updates : List Update) (s : σ) (key : RecordKey) :
    RecordStore.get? (updates.foldl Update.store s) key =
      (RecordStore.get? s key).map
        (Option.map fun r => (changesAt key updates).foldl Record.apply r) := by
  induction updates generalizing s with
  | nil =>
    show RecordStore.get? s key = (RecordStore.get? s key).map (Option.map id)
    rw [Option.map_id]
    cases RecordStore.get? s key <;> rfl
  | cons u rest ih =>
    rw [List.foldl_cons, ih, Targeted.get?_store]
    by_cases hkey : key = u.key
    · have hchanges : changesAt key (u :: rest) = u.change :: changesAt key rest := by
        rw [changesAt, List.filter_cons_of_pos (by simp [hkey])]
        rfl
      rw [if_pos hkey, hchanges]
      cases RecordStore.get? s key with
      | error e => rfl
      | ok found => cases found <;> rfl
    · have hchanges : changesAt key (u :: rest) = changesAt key rest := by
        rw [changesAt, List.filter_cons_of_neg (by simpa using Ne.symm hkey)]
        rfl
      rw [if_neg hkey, hchanges]

theorem occupied_updates (updates : List Update) (s : σ) (key : RecordKey) :
    occupied (updates.foldl Update.store s) key = occupied s key := by
  rw [occupied, get?_updates, occupied]
  cases RecordStore.get? s key with
  | error e => rfl
  | ok found => cases found <;> rfl

theorem keysOfObject_updates (updates : List Update) (s : σ) (object deployment : String) :
    keysOfObject (updates.foldl Update.store s) object deployment =
      keysOfObject s object deployment := by
  induction updates generalizing s with
  | nil => rfl
  | cons u rest ih => rw [List.foldl_cons, ih, Targeted.keysOfObject_store]

/-- Each update of a run is answered as on the store before the run. -/
theorem answers_updates (updates : List Update) (s : σ) :
    (run (updates.map Update.write) s).1 = updates.map fun u => (u.write.run s).1 := by
  induction updates generalizing s with
  | nil => rfl
  | cons u rest ih =>
    have hsame : ∀ v : Update, (v.write.run (u.store s)).1 = (v.write.run s).1 := by
      intro v
      have hoccupied : occupied (u.store s) v.key = occupied s v.key :=
        occupied_updates [u] s v.key
      rw [Targeted.answer, Targeted.answer, hoccupied]
    calc (run ((u :: rest).map Update.write) s).1
        = (u.write.run s).1 :: (run (rest.map Update.write) (u.store s)).1 := rfl
      _ = (u.write.run s).1 :: rest.map fun v => (v.write.run s).1 := by
          rw [ih (u.store s)]
          simp only [hsame]

/-- An update may be made again after updates for other attributes. -/
theorem updates_again [Steady σ] (before : List Update) {u : Update} {after : List Update}
    (hafter : ∀ v ∈ after, v.address ≠ u.address) (s : σ) :
    (before ++ u :: after ++ [u]).foldl Update.store s =
      (before ++ u :: after).foldl Update.store s := by
  have hcomm : ∀ (s : σ) {u v : Update}, u.address ≠ v.address →
      v.store (u.store s) = u.store (v.store s) := Targeted.store_comm
  simp only [List.foldl_append, List.foldl_cons, List.foldl_nil]
  rw [foldl_step_comm hcomm hafter, Update.store_again]

/-- Updates have been made one by one: what they are answered and what they leave of a store. -/
structure KeptApart (s : σ) (updates : List Update) : Prop where
  /-- An update is answered as if it were the only one. -/
  answers : (run (updates.map Update.write) s).1 = updates.map fun u => (u.write.run s).1
  /-- An update without its record is refused and changes nothing. -/
  missing : ∀ u : Update, RecordStore.get? s u.key = .ok none →
    u.write.run s = (.error (.recordNotFound u.key), s)
  /-- Each attribute has its last change. -/
  rows : ∀ key r, RecordStore.get? s key = .ok (some r) →
    ∃ r', RecordStore.get? (run (updates.map Update.write) s).2 key = .ok (some r') ∧
      Record.HasLast (changesAt key updates) r r'
  occupied : ∀ key,
    occupied (run (updates.map Update.write) s).2 key = occupied s key
  keysOfObject : ∀ object deployment,
    keysOfObject (run (updates.map Update.write) s).2 object deployment =
      keysOfObject s object deployment
  /-- The order counts only among updates for one attribute. -/
  reordered : ∀ updates' : List Update,
    (∀ address, updates'.filter (Update.address · = address) =
      updates.filter (Update.address · = address)) →
    (run (updates'.map Update.write) s).2 = (run (updates.map Update.write) s).2
  /-- An update may be made again, if none for its attribute came between. -/
  repeated : ∀ {before u after}, updates = before ++ u :: after →
    (∀ v ∈ after, v.address ≠ u.address) →
    (run ((updates ++ [u]).map Update.write) s).2 = (run (updates.map Update.write) s).2

theorem keptApart [Steady σ] (s : σ) (updates : List Update) : KeptApart s updates where
  answers := answers_updates updates s
  missing u h := by
    refine Update.run_of_error ?_
    rw [Targeted.answer, RecordStore.occupied, h]
    rfl
  rows key r h := by
    refine ⟨_, ?_, Record.hasLast_foldl (changesAt key updates) r⟩
    rw [run_updates, get?_updates, h]
    rfl
  occupied key := by rw [run_updates, occupied_updates]
  keysOfObject object deployment := by rw [run_updates, keysOfObject_updates]
  reordered updates' h := by
    rw [run_updates, run_updates]
    exact foldl_eq_of_filter_eq (fun s => Targeted.store_comm s) h s
  repeated {before u after} hupdates hafter := by
    subst hupdates
    rw [run_updates, run_updates]
    exact updates_again before hafter s

/-- In both stores updates do not disturb one another. -/
theorem updates_keptApart (updates : List Update) :
    (∀ t : RecordTable, KeptApart t updates) ∧ ∀ s : ByteStore, KeptApart s updates :=
  ⟨fun t => keptApart t updates, fun s => keptApart s updates⟩

/-- The later error stays, with its own code. -/
example :
    (run ([⟨⟨"live", 1⟩, .setError "no build" "E1"⟩, ⟨⟨"live", 1⟩, .setPlanStatus "FAILED"⟩,
        ⟨⟨"live", 1⟩, .setError "no network" "E2"⟩].map Update.write)
      (RecordTable.ofList [.minimal "live" 1 "app" "stack"])).2 =
    RecordTable.ofList [{ Record.minimal "live" 1 "app" "stack" with
      errorMessage := some "no network"
      errorCode := some "E2"
      planStatus := some "FAILED" }] := by
  decide +kernel

end RecordStore

end Rollout
