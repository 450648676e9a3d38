import Rollout.Proofs.Store.Refinement

/-!
# Records come back as they were put

The text of a record determines the record: it is read back in either layout, so no two records
share a text.  A byte store is *legible* if each of its rows is the text of a record.  It then finds
no text that it cannot decode, whatever the names of the records are, and writes keep it legible
(`ByteStore.Legible.run`).  So after any writes a record can be put, and is found unchanged at its
key (`RecordStore.lossless`).
-/

namespace Rollout

namespace ByteStore

open RecordStore

/-- Each row is the text of a record. -/
def Legible (s : ByteStore) : Prop :=
  ∃ records : SortedMap ByteKey Record, s.rows = records.mapValues Record.text

theorem legible_empty : Legible empty := ⟨.empty, rfl⟩

theorem Legible.put {s : ByteStore} (h : s.Legible) (r : Record) :
    ∃ s', s.put r = .ok s' ∧ s'.Legible ∧ s'.get? r.key = .ok (some r) := by
  obtain ⟨records, hrows⟩ := h
  obtain ⟨index, hput⟩ := put_of_rows hrows r
  refine ⟨_, hput, ⟨_, rfl⟩, ?_⟩
  rw [get?_of_rows rfl, SortedMap.get?_insert, if_pos rfl]

/-- A write that is made leaves texts of records, and one that is refused changes nothing. -/
theorem Legible.run_write {s : ByteStore} (h : s.Legible) (w : Write) : (w.run s).2.Legible := by
  cases w with
  | put r =>
    obtain ⟨s', hput, hlegible, _⟩ := h.put r
    have hattempt : (Write.put r).attempt s = .ok s' := hput
    rw [Write.run_of_ok hattempt]
    exact hlegible
  | update key change =>
    cases hattempt : (Write.update key change).attempt s with
    | error e =>
      rw [Write.run_of_error hattempt]
      exact h
    | ok s' =>
      rw [Write.run_of_ok hattempt]
      obtain ⟨records, hrows⟩ := h
      have hupdate : s.update key change = .ok s' := hattempt
      cases hget : records.get? (ByteKey.ofRecord key) with
      | none =>
        rw [ByteStore.update, hrows, SortedMap.get?_mapValues, hget] at hupdate
        cases hupdate
      | some r =>
        obtain rfl := Except.ok.inj ((update_of_mem hrows hget change).symm.trans hupdate)
        exact ⟨_, rfl⟩

theorem Legible.run {s : ByteStore} (h : s.Legible) (writes : List Write) :
    (RecordStore.run writes s).2.Legible := by
  induction writes generalizing s with
  | nil => exact h
  | cons w rest ih => exact ih (h.run_write w)

end ByteStore

namespace RecordStore

/-- Reading determines what was written. -/
theorem eq_iff_of_ofText {write : Record → String} (h : ∀ r, Record.ofText (write r) = .ok r)
    (r other : Record) : write other = write r ↔ other = r := by
  constructor
  · intro heq
    have hother := h other
    rw [heq, h r] at hother
    exact (Except.ok.inj hother).symm
  · rintro rfl
    rfl

/-- The compact and the pretty text of a record are read back as the record, and no other record
has either of them.  After any writes the record can be put into a byte store, and is found at its
key as it was put. -/
theorem lossless (r : Record) :
    Record.ofText r.document.compact = .ok r ∧ Record.ofText r.document.pretty = .ok r ∧
      (∀ other : Record, (other.document.compact = r.document.compact ↔ other = r) ∧
        (other.document.pretty = r.document.pretty ↔ other = r)) ∧
      ∀ writes, ∃ s, put r (run writes (empty : ByteStore)).2 = .ok s ∧
        get? s r.key = .ok (some r) := by
  refine ⟨Record.ofText_text r, Record.ofText_pretty r, fun other => ⟨?_, ?_⟩, fun writes => ?_⟩
  · exact eq_iff_of_ofText Record.ofText_text r other
  · exact eq_iff_of_ofText Record.ofText_pretty r other
  · obtain ⟨s, hput, _, hget⟩ := (ByteStore.legible_empty.run writes).put r
    exact ⟨s, hput, hget⟩

end RecordStore

end Rollout
