import Rollout.Proofs.SortedMap
import Rollout.Store.Table

/-!
# The contents of a record table

In a table that was filled by `put` each record stands at its own key (`RecordTable.Keyed`), so a
record is in a listing exactly if it is found at its key and has the names that were asked for.
A change leaves names and key of its record alone.  `RecordTable.changeRows` is the table after one
change to every row of an object and a target; it is told from the others by what it answers at each
key (`get?_changeRows`).  A record is among the latest ones of a target if fewer records of the
target than the limit are newer (`Keyed.mem_latest_iff`).
-/

namespace Rollout

/-! ## Changes of records -/

namespace Record

@[simp] theorem deployment_apply (r : Record) (change : Change) :
    (r.apply change).deployment = r.deployment := by
  cases change <;> rfl

@[simp] theorem object_apply (r : Record) (change : Change) :
    (r.apply change).object = r.object := by
  cases change <;> rfl

@[simp] theorem key_apply (r : Record) (change : Change) : (r.apply change).key = r.key := by
  cases change <;> rfl

@[simp] theorem isTemplate_apply (r : Record) (change : Change) :
    (r.apply change).isTemplate = r.isTemplate := by
  cases change <;> rfl

@[simp] theorem stack_apply (r : Record) (change : Change) : (r.apply change).stack = r.stack := by
  cases change <;> rfl

/-- A change that is made again changes nothing more. -/
@[simp] theorem apply_apply (r : Record) (change : Change) :
    (r.apply change).apply change = r.apply change := by
  cases change with
  | setExecution attempt execution => simp only [apply, SortedMap.insert_insert]
  | setError message code => rfl
  | setPlanStatus status => rfl

end Record

/-- Of the keys of one target the lesser one has the earlier time. -/
theorem RecordKey.time_lt {k l : RecordKey} (h : compare k l = .lt)
    (hdeployment : k.deployment = l.deployment) : k.time < l.time := by
  have hself : compare l.deployment l.deployment = .eq := Std.ReflCmp.compare_self
  have hkey : compare k l = (compare k.deployment l.deployment).then (compare k.time l.time) := rfl
  rw [hkey, hdeployment, hself, Ordering.eq_then] at h
  exact compareOfLessAndEq_eq_lt.mp h

namespace RecordTable

/-! ## Keys -/

/-- Each record stands at its own key. -/
def Keyed (t : RecordTable) : Prop := ∀ key r, t.records.get? key = some r → r.key = key

theorem get?_put (t : RecordTable) (r : Record) (key : RecordKey) :
    (t.put r).records.get? key = if key = r.key then some r else t.records.get? key :=
  SortedMap.get?_insert t.records r.key r key

theorem keyed_empty : Keyed ⟨.empty⟩ := by
  intro key r h
  cases h

theorem Keyed.put {t : RecordTable} (h : t.Keyed) (r : Record) : (t.put r).Keyed := by
  intro key s hs
  rw [get?_put] at hs
  split at hs
  next hkey => rw [← Option.some.inj hs, hkey]
  next => exact h key s hs

/-- A table of records is filled by `put`. -/
theorem ofList_eq_foldl (records : List Record) :
    ofList records = records.foldl (fun t r => t.put r) ⟨.empty⟩ := by
  suffices h : ∀ t : RecordTable, (records.foldl (fun t r => t.put r) t).records =
      (records.map fun r => (r.key, r)).foldl (fun m e => m.insert e.1 e.2) t.records by
    rw [ofList, ← SortedMap.foldl_insert_empty]
    exact congrArg RecordTable.mk (h ⟨.empty⟩).symm
  induction records with
  | nil => exact fun t => rfl
  | cons r rest ih => exact fun t => ih (t.put r)

theorem keyed_ofList (records : List Record) : (ofList records).Keyed := by
  rw [ofList_eq_foldl]
  suffices h : ∀ t : RecordTable, t.Keyed → (records.foldl (fun t r => t.put r) t).Keyed from
    h _ keyed_empty
  induction records with
  | nil => exact fun t ht => ht
  | cons r rest ih => exact fun t ht => ih (t.put r) (ht.put r)

/-- A record is among the values exactly if it is found at its key. -/
theorem Keyed.mem_values {t : RecordTable} (h : t.Keyed) {r : Record} :
    r ∈ t.records.values ↔ t.records.get? r.key = some r := by
  rw [SortedMap.mem_values]
  constructor
  · rintro ⟨key, hget⟩
    rw [h key r hget]
    exact hget
  · exact fun hget => ⟨r.key, hget⟩

/-- A record that was put stands beside the records of other keys. -/
theorem Keyed.mem_values_put {t : RecordTable} (h : t.Keyed) {r s : Record} :
    s ∈ (t.put r).records.values ↔ s = r ∨ s ∈ t.records.values ∧ s.key ≠ r.key := by
  rw [(h.put r).mem_values, h.mem_values, get?_put]
  constructor
  · intro hget
    split at hget
    next => exact .inl (Option.some.inj hget).symm
    next hkey => exact .inr ⟨hget, hkey⟩
  · rintro (rfl | ⟨hget, hkey⟩)
    · rw [if_pos rfl]
    · rw [if_neg hkey, hget]

/-- Records with one key are one record. -/
theorem Keyed.eq_of_key_eq {t : RecordTable} (h : t.Keyed) {r s : Record}
    (hr : r ∈ t.records.values) (hs : s ∈ t.records.values) (hkey : r.key = s.key) : r = s := by
  rw [h.mem_values] at hr hs
  rw [hkey, hs] at hr
  exact (Option.some.inj hr).symm

/-- The records stand in the order of their keys. -/
theorem Keyed.pairwise_values {t : RecordTable} (h : t.Keyed) :
    t.records.values.Pairwise fun r s => compare r.key s.key = .lt := by
  refine List.pairwise_map.mpr (t.records.ascending.imp_of_mem ?_)
  rintro ⟨k, r⟩ ⟨l, s⟩ hr hs hlt
  rw [h k r (SortedMap.mem_entries.mp hr), h l s (SortedMap.mem_entries.mp hs)]
  exact hlt

/-! ## Listings -/

theorem mem_ofDeployment {t : RecordTable} {deployment : String} {r : Record} :
    r ∈ t.ofDeployment deployment ↔ r ∈ t.records.values ∧ r.deployment = deployment := by
  simp [ofDeployment]

theorem mem_ofObject {t : RecordTable} {object deployment : String} {r : Record} :
    r ∈ t.ofObject object deployment ↔
      r ∈ t.records.values ∧ r.deployment = deployment ∧ r.object = object := by
  simp [ofObject]

/-- Records of one target stand in the order of their times. -/
theorem Keyed.pairwise_time {t : RecordTable} (h : t.Keyed) {p : Record → Bool}
    {deployment : String} (hp : ∀ r, p r = true → r.deployment = deployment) :
    (t.records.values.filter p).Pairwise fun r s => r.time < s.time := by
  refine (h.pairwise_values.filter _).imp_of_mem fun {r s} hr hs hlt => ?_
  have hr := hp r (List.mem_filter.mp hr).2
  have hs := hp s (List.mem_filter.mp hs).2
  exact RecordKey.time_lt hlt (hr.trans hs.symm)

theorem Keyed.pairwise_ofObject {t : RecordTable} (h : t.Keyed) (object deployment : String) :
    (t.ofObject object deployment).Pairwise fun r s => r.time < s.time :=
  h.pairwise_time fun _ hr => beq_iff_eq.mp (Bool.and_eq_true_iff.mp hr).1

theorem Keyed.pairwise_ofDeployment {t : RecordTable} (h : t.Keyed) (deployment : String) :
    (t.ofDeployment deployment).Pairwise fun r s => r.time < s.time :=
  h.pairwise_time fun _ => beq_iff_eq.mp

/-- The newest records of a target with no more records than the limit are all its records. -/
theorem mem_latest {t : RecordTable} {deployment : String} {limit : Nat}
    (h : (t.ofDeployment deployment).length ≤ limit) {r : Record} :
    r ∈ t.latest deployment limit ↔ r ∈ t.ofDeployment deployment := by
  rw [latest, List.take_of_length_le (by rwa [List.length_reverse]), List.mem_reverse]

/-- Among the first so many of records that get older are those with fewer than so many newer
ones. -/
theorem mem_take_iff_countP_lt {r : Record} : ∀ {records : List Record},
    (records.Pairwise fun r s => s.time < r.time) → ∀ {limit : Nat},
      r ∈ records.take limit ↔
        r ∈ records ∧ records.countP (fun s => decide (r.time < s.time)) < limit
  | [], _, limit => by simp
  | first :: rest, h, limit => by
      obtain ⟨hfirst, hrest⟩ := List.pairwise_cons.mp h
      cases limit with
      | zero => simp
      | succ limit =>
        have hcons : r ∈ rest → (first :: rest).countP (fun s => decide (r.time < s.time)) =
            rest.countP (fun s => decide (r.time < s.time)) + 1 := fun hmem =>
          List.countP_cons_of_pos (p := fun s : Record => decide (r.time < s.time))
            (decide_eq_true (hfirst r hmem))
        rw [List.take_succ_cons, List.mem_cons, List.mem_cons, mem_take_iff_countP_lt hrest]
        constructor
        · rintro (rfl | ⟨hmem, hcount⟩)
          · -- None of the records is newer than the first one.
            have hnone : (r :: rest).countP (fun s => decide (r.time < s.time)) = 0 := by
              refine List.countP_eq_zero.mpr fun s hs => ?_
              rw [decide_eq_true_eq]
              rcases List.mem_cons.mp hs with rfl | hs
              · exact UInt64.lt_irrefl _
              · exact UInt64.lt_asymm (hfirst s hs)
            exact ⟨.inl rfl, hnone ▸ Nat.succ_pos limit⟩
          · rw [hcons hmem]
            exact ⟨.inr hmem, Nat.succ_lt_succ hcount⟩
        · rintro ⟨rfl | hmem, hcount⟩
          · exact .inl rfl
          · rw [hcons hmem] at hcount
            exact .inr ⟨hmem, Nat.lt_of_succ_lt_succ hcount⟩

/-- One of the newest records of a target: fewer than so many of its records have a later time. -/
def Recent (t : RecordTable) (deployment : String) (limit : Nat) (r : Record) : Prop :=
  r ∈ t.records.values ∧ r.deployment = deployment ∧
    t.records.values.countP (fun s => s.deployment = deployment ∧ r.time < s.time) < limit

/-- The latest records of a target are the newest ones. -/
theorem Keyed.mem_latest_iff {t : RecordTable} (h : t.Keyed) {deployment : String} {limit : Nat}
    {r : Record} : r ∈ t.latest deployment limit ↔ t.Recent deployment limit r := by
  have hnewer : t.records.values.countP (fun s => s.deployment = deployment ∧ r.time < s.time) =
      (t.ofDeployment deployment).countP fun s => decide (r.time < s.time) := by
    rw [ofDeployment, List.countP_filter]
    refine List.countP_congr fun s _ => ?_
    simp [and_comm]
  have hnewestFirst := List.pairwise_reverse.mpr (h.pairwise_ofDeployment deployment)
  rw [latest, mem_take_iff_countP_lt hnewestFirst, List.mem_reverse, List.countP_reverse,
    mem_ofDeployment, Recent, hnewer, and_assoc]

/-- The rows of an object and a target have distinct keys. -/
theorem Keyed.nodup_keys_ofObject {t : RecordTable} (h : t.Keyed) (object deployment : String) :
    ((t.ofObject object deployment).map Record.key).Nodup := by
  have hkeys : t.records.values.map Record.key = t.records.entries.map Prod.fst := by
    rw [SortedMap.values, List.map_map]
    refine List.map_congr_left ?_
    rintro ⟨key, r⟩ hmem
    exact h key r (SortedMap.mem_entries.mp hmem)
  have hnodup := t.records.ascending.nodup_keys
  rw [← hkeys] at hnodup
  exact hnodup.sublist (List.filter_sublist.map _)

/-! ## Changing the rows of an object and a target -/

/-- The table after a change to every row of an object and a target. -/
def changeRows (object deployment : String) (change : Record.Change) (t : RecordTable) :
    RecordTable :=
  ⟨t.records.mapValues fun r =>
    if r.deployment == deployment && r.object == object then r.apply change else r⟩

theorem get?_changeRows (object deployment : String) (change : Record.Change) (t : RecordTable)
    (key : RecordKey) :
    (t.changeRows object deployment change).records.get? key = (t.records.get? key).map fun r =>
      if r.deployment == deployment && r.object == object then r.apply change else r :=
  SortedMap.get?_mapValues _ t.records key

/-- A listing is changed in place, as a change leaves the names that it goes by. -/
theorem filter_changeRows (object deployment : String) (change : Record.Change) (t : RecordTable)
    {p : Record → Bool} (hp : ∀ r, p (r.apply change) = p r) :
    (t.changeRows object deployment change).records.values.filter p =
      (t.records.values.filter p).map fun r =>
        if r.deployment == deployment && r.object == object then r.apply change else r := by
  rw [changeRows, SortedMap.values_mapValues, List.filter_map]
  refine congrArg _ (List.filter_congr fun r _ => ?_)
  simp only [Function.comp_apply]
  split
  · exact hp r
  · rfl

theorem ofDeployment_changeRows (object deployment : String) (change : Record.Change)
    (t : RecordTable) (listed : String) :
    (t.changeRows object deployment change).ofDeployment listed =
      (t.ofDeployment listed).map fun r =>
        if r.deployment == deployment && r.object == object then r.apply change else r :=
  t.filter_changeRows object deployment change fun r => by rw [Record.deployment_apply]

theorem ofObject_changeRows (object deployment : String) (change : Record.Change)
    (t : RecordTable) (listed listedDeployment : String) :
    (t.changeRows object deployment change).ofObject listed listedDeployment =
      (t.ofObject listed listedDeployment).map fun r =>
        if r.deployment == deployment && r.object == object then r.apply change else r :=
  t.filter_changeRows object deployment change fun r => by
    rw [Record.deployment_apply, Record.object_apply]

theorem latest_changeRows (object deployment : String) (change : Record.Change) (t : RecordTable)
    (listed : String) (limit : Nat) :
    (t.changeRows object deployment change).latest listed limit =
      (t.latest listed limit).map fun r =>
        if r.deployment == deployment && r.object == object then r.apply change else r := by
  rw [latest, ofDeployment_changeRows, ← List.map_reverse, ← List.map_take, latest]

/-- A change that is made again changes no row more. -/
theorem changeRows_changeRows (object deployment : String) (change : Record.Change)
    (t : RecordTable) :
    (t.changeRows object deployment change).changeRows object deployment change =
      t.changeRows object deployment change := by
  refine congrArg RecordTable.mk (SortedMap.ext_get? fun key => ?_)
  rw [SortedMap.get?_mapValues, get?_changeRows, Option.map_map]
  refine (congrArg (Option.map · _) (funext fun r => ?_)).trans
    (get?_changeRows object deployment change t key).symm
  by_cases h : r.deployment = deployment ∧ r.object = object <;> simp [h]

theorem Keyed.changeRows {t : RecordTable} (h : t.Keyed) (object deployment : String)
    (change : Record.Change) : (t.changeRows object deployment change).Keyed := by
  intro key s hs
  rw [get?_changeRows, Option.map_eq_some_iff] at hs
  obtain ⟨r, hget, rfl⟩ := hs
  split
  next => rw [Record.key_apply, h key r hget]
  next => exact h key r hget

/-! ## Changing some rows -/

/-- The table after a change to the given rows. -/
def changeAmong (written : List Record) (change : Record.Change) (t : RecordTable) : RecordTable :=
  ⟨t.records.mapValues fun r => if r ∈ written then r.apply change else r⟩

theorem get?_changeAmong (written : List Record) (change : Record.Change) (t : RecordTable)
    (key : RecordKey) :
    (t.changeAmong written change).records.get? key = (t.records.get? key).map fun r =>
      if r ∈ written then r.apply change else r :=
  SortedMap.get?_mapValues _ t.records key

theorem changeAmong_nil (change : Record.Change) (t : RecordTable) :
    t.changeAmong [] change = t := by
  refine congrArg RecordTable.mk (SortedMap.ext_get? (a := (t.changeAmong [] change).records) ?_)
  intro key
  rw [get?_changeAmong]
  cases t.records.get? key with
  | none => rfl
  | some r => simp

end RecordTable

end Rollout
