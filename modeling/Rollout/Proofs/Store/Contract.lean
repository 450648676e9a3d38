import Rollout.Proofs.Store.Refinement

/-!
# What a coordinator may rely on

A coordinator repeats the calls that fail for a passing reason, and it reads a store through listings
and writes it by changes.  Two things about a store are worth knowing then.  It is *steady* if it
never fails for a passing reason by itself and a change may be made twice (`RecordStore.Steady`).  It
is *tabular* if it can hold the records of a table, so that it answers and changes as the table does
(`RecordStore.Tabular`).

Both stores are steady, whatever they contain.  A record table holds itself, provided that its
records stand at their own keys, and a byte store holds the tables that it represents.
-/

namespace Rollout

namespace RecordStore

/-! ## Steady stores -/

/-- Failures of the store are final, and a change that is made again changes nothing more. -/
class Steady (σ : Type) [RecordStore σ] : Prop where
  ofObject : ∀ {s : σ} {object deployment e},
    RecordStore.ofObject s object deployment = .error e → Transient.isTransient e = false
  ofDeployment : ∀ {s : σ} {deployment e},
    RecordStore.ofDeployment s deployment = .error e → Transient.isTransient e = false
  latest : ∀ {s : σ} {deployment limit e},
    RecordStore.latest s deployment limit = .error e → Transient.isTransient e = false
  update : ∀ {s : σ} {key change e},
    RecordStore.update key change s = .error e → Transient.isTransient e = false
  update_again : ∀ {s s' : σ} {key change},
    RecordStore.update key change s = .ok s' → RecordStore.update key change s' = .ok s'

end RecordStore

open RecordStore

namespace RecordTable

theorem update_of_get? {t : RecordTable} {key : RecordKey} {r : Record}
    (h : t.records.get? key = some r) (change : Record.Change) :
    t.update key change = .ok ⟨t.records.insert key (r.apply change)⟩ := by
  rw [update, h]

/-- Changing one more row. -/
theorem Keyed.update_changeAmong {t : RecordTable} (h : t.Keyed) {r : Record}
    (hr : r ∈ t.records.values) (written : List Record) (change : Record.Change) :
    (t.changeAmong written change).update r.key change =
      .ok (t.changeAmong (written ++ [r]) change) := by
  have hget := h.mem_values.mp hr
  have hrow : (t.changeAmong written change).records.get? r.key =
      some (if r ∈ written then r.apply change else r) := by
    rw [get?_changeAmong, hget, Option.map_some]
  have hchanged : (if r ∈ written then r.apply change else r).apply change = r.apply change := by
    split
    · exact Record.apply_apply r change
    · rfl
  rw [update_of_get? hrow, hchanged]
  refine congrArg (Except.ok ∘ RecordTable.mk) (SortedMap.ext_get? fun key => ?_)
  refine .trans ?_ (get?_changeAmong (written ++ [r]) change t key).symm
  rw [SortedMap.get?_insert, get?_changeAmong]
  by_cases hkey : key = r.key
  · rw [if_pos hkey, hkey, hget, Option.map_some, if_pos (by simp)]
  · rw [if_neg hkey]
    refine Option.map_congr fun s hs => ?_
    have hother : s ≠ r := by
      rintro rfl
      exact hkey (h key s hs).symm
    simp [hother]

/-- A change keeps each record at its own key. -/
theorem Keyed.update {t t' : RecordTable} (h : t.Keyed) {key : RecordKey} {change : Record.Change}
    (hupdate : t.update key change = .ok t') : t'.Keyed := by
  cases hget : t.records.get? key with
  | none =>
    rw [RecordTable.update, hget] at hupdate
    cases hupdate
  | some r =>
    have hkey : (r.apply change).key = key := by rw [Record.key_apply, h key r hget]
    rw [update_of_get? hget, ← hkey] at hupdate
    cases hupdate
    exact h.put (r.apply change)

theorem update_error {t : RecordTable} {key : RecordKey} {change : Record.Change} {e : StoreError}
    (h : t.update key change = .error e) : e = .recordNotFound key := by
  rw [update] at h
  split at h
  · cases h
  · exact (Except.error.inj h).symm

theorem update_again {t t' : RecordTable} {key : RecordKey} {change : Record.Change}
    (h : t.update key change = .ok t') : t'.update key change = .ok t' := by
  cases hget : t.records.get? key with
  | none =>
    rw [update, hget] at h
    cases h
  | some r =>
    have ht' : t' = ⟨t.records.insert key (r.apply change)⟩ :=
      (Except.ok.inj ((update_of_get? hget change).symm.trans h)).symm
    have hagain : t'.records.get? key = some (r.apply change) := by
      rw [ht', SortedMap.get?_insert, if_pos rfl]
    calc t'.update key change
        = .ok ⟨t'.records.insert key ((r.apply change).apply change)⟩ :=
          update_of_get? hagain change
      _ = .ok t' := by rw [Record.apply_apply, ht', SortedMap.insert_insert]

instance : Steady RecordTable where
  ofObject h := nomatch h
  ofDeployment h := nomatch h
  latest h := nomatch h
  update {_ key _ e} h := by
    have hmissing : e = .recordNotFound key := update_error h
    rw [hmissing]
    rfl
  update_again := update_again

end RecordTable

namespace ByteStore

theorem decode_error {text : String} {e : StoreError} (h : decode text = .error e) :
    Transient.isTransient e = false := by
  rw [decode] at h
  split at h
  · cases h
  · cases h
    rfl

theorem mapM_decode_error {texts : List String} {e : StoreError}
    (h : texts.mapM decode = .error e) : Transient.isTransient e = false := by
  induction texts with
  | nil => cases h
  | cons text rest ih =>
    rw [List.mapM_cons] at h
    cases htext : decode text with
    | error fault =>
      rw [htext] at h
      cases h
      exact decode_error htext
    | ok r =>
      rw [htext] at h
      cases hrest : rest.mapM decode with
      | error fault =>
        rw [hrest] at h
        cases h
        exact ih hrest
      | ok records =>
        rw [hrest] at h
        cases h

/-- How a change comes out: it is made to the record that the row at its key holds, or it fails
because there is no such row or no such record. -/
theorem update_cases (s : ByteStore) (key : RecordKey) (change : Record.Change) :
    (∃ e, s.update key change = .error e ∧ Transient.isTransient e = false) ∨
      ∃ r : Record, s.update key change =
        .ok { s with rows := s.rows.insert (ByteKey.ofRecord key) (r.apply change).text } := by
  rw [update]
  cases hrow : s.rows.get? (ByteKey.ofRecord key) with
  | none => exact .inl ⟨_, rfl, rfl⟩
  | some text =>
    cases htext : decode text with
    | error e =>
      refine .inl ⟨e, ?_, decode_error htext⟩
      simp only [htext]
      rfl
    | ok r =>
      refine .inr ⟨r, ?_⟩
      simp only [htext]
      rfl

theorem update_again {s s' : ByteStore} {key : RecordKey} {change : Record.Change}
    (h : s.update key change = .ok s') : s'.update key change = .ok s' := by
  rcases s.update_cases key change with ⟨e, herror, _⟩ | ⟨r, hok⟩
  · rw [herror] at h
    cases h
  · rw [hok] at h
    cases h
    rw [update, SortedMap.get?_insert, if_pos rfl]
    simp only [decode_text]
    show Except.ok _ = _
    rw [Record.apply_apply, SortedMap.insert_insert]

instance : Steady ByteStore where
  ofObject h := mapM_decode_error h
  ofDeployment h := mapM_decode_error h
  latest h := mapM_decode_error h
  update {s key change e} h := by
    rcases s.update_cases key change with ⟨e', herror, hfinal⟩ | ⟨r, hok⟩
    · obtain rfl : e' = e := Except.error.inj (herror.symm.trans h)
      exact hfinal
    · exact nomatch hok.symm.trans h
  update_again := update_again

end ByteStore

namespace RecordStore

/-! ## Tabular stores -/

/-- Stores that can hold the records of a table. -/
class Tabular (σ : Type) [RecordStore σ] where
  /-- The records of the store are those of the table. -/
  Holds : σ → RecordTable → Prop
  keyed : ∀ {s : σ} {t}, Holds s t → t.Keyed
  agree : ∀ {s : σ} {t}, Holds s t → Agree s t
  update : ∀ {s : σ} {t t' : RecordTable} {key change}, Holds s t → t.update key change = .ok t' →
    ∃ s', RecordStore.update key change s = .ok s' ∧ Holds s' t'

instance : Tabular RecordTable where
  Holds s t := s = t ∧ t.Keyed
  keyed h := h.2
  agree h := h.1 ▸ ⟨fun _ => rfl, fun _ _ => rfl, fun _ => rfl, fun _ _ => rfl⟩
  update {s t t' key change} h hupdate := by
    obtain ⟨rfl, hkeyed⟩ := h
    exact ⟨t', hupdate, rfl, hkeyed.update hupdate⟩

instance : Tabular ByteStore where
  Holds s t := ByteStore.Represents t s
  keyed h := h.keyed
  agree h := h.agree
  update {s t t' key change} h hupdate := by
    rcases h.update key change with ⟨hrefused, _⟩ | ⟨t'', s', htable, hbytes, hstore⟩
    · exact nomatch hrefused.symm.trans hupdate
    · obtain rfl : t'' = t' := Except.ok.inj (htable.symm.trans hupdate)
      exact ⟨s', hbytes, hstore⟩

end RecordStore

end Rollout
