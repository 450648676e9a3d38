import Mathlib.Data.List.Forall2
import Rollout.Proofs.Deployment.Reading
import Rollout.Proofs.Store.Key
import Rollout.Proofs.Store.Table
import Rollout.Store.Bytes

/-!
# The byte store refines the record table

`ByteStore.Represents` says that a byte store holds the records of a table: its rows are their texts
under their keys, and its index has one row for each of them and no other.  The names of the records
are plain, since the separator in a name could let keys of different records meet.  Rows and index
are two cases of a table that lists records (`ByteStore.Lists`).

Both stores make the same writes (`Represents.put`, `Represents.update`), and a represented table is
read back by each query (`Represents.get?_eq`, `ofObject_eq`, `ofDeployment_eq`, `latest_eq`).  A
scan gives the listing in the same order because two ascending lists with the same members are equal
(`Lists.scan_eq`).

A run of writes keeps the representation, so it gets the same answers from both stores, and every
query after it does too (`RecordStore.run_agrees`).
-/

namespace Rollout

/-- A record whose names are plain. -/
structure Record.Plain (r : Record) : Prop where
  object : Rollout.Plain r.object
  deployment : Rollout.Plain r.deployment

theorem Record.Plain.key {r : Record} (h : r.Plain) : Rollout.Plain r.key.deployment :=
  h.deployment

namespace ByteStore

/-! ## Rows of records -/

/-- A table with a row for each of the records, and no other. -/
def Lists {α : Type} (records : List Record) (key : Record → ByteKey) (value : Record → α)
    (table : SortedMap ByteKey α) : Prop :=
  ∀ k v, table.get? k = some v ↔ ∃ r ∈ records, k = key r ∧ v = value r

/-- The row of a record is written into a table that has the rows of all records with other keys. -/
theorem Lists.put {α : Type} {t : RecordTable} (hkeyed : t.Keyed) {r : Record}
    {key : Record → ByteKey} {value : Record → α} {table : SortedMap ByteKey α}
    (hothers : ∀ k v, k ≠ key r → (table.get? k = some v ↔
      ∃ r' ∈ t.records.values, r'.key ≠ r.key ∧ k = key r' ∧ v = value r'))
    (hapart : ∀ r' ∈ t.records.values, key r' = key r → r'.key = r.key) :
    Lists (t.put r).records.values key value (table.insert (key r) (value r)) := by
  intro k v
  simp only [SortedMap.get?_insert, hkeyed.mem_values_put]
  by_cases hk : k = key r
  · rw [if_pos hk]
    constructor
    · intro hv
      exact ⟨r, .inl rfl, hk, (Option.some.inj hv).symm⟩
    · rintro ⟨r', rfl | ⟨hr', hne⟩, hk', rfl⟩
      · rfl
      · exact absurd (hapart r' hr' (hk'.symm.trans hk)) hne
  · rw [if_neg hk, hothers k v hk]
    constructor
    · rintro ⟨r', hr', hne, hk', hv⟩
      exact ⟨r', .inr ⟨hr', hne⟩, hk', hv⟩
    · rintro ⟨r', rfl | ⟨hr', hne⟩, hk', hv⟩
      · exact absurd hk' hk
      · exact ⟨r', hr', hne, hk', hv⟩

/-- A scan gives the rows of the records that it takes in, in their order if the keys follow it. -/
theorem Lists.scan_eq {α : Type} {records : List Record} {key : Record → ByteKey}
    {value : Record → α} {table : SortedMap ByteKey α} (h : Lists records key value table)
    {start : ByteKey} {p : Record → Bool} (hscan : ∀ r ∈ records, start.inScan (key r) = p r)
    (hascending : (records.filter p).Pairwise fun r r' => compare (key r) (key r') = .lt) :
    scan table start = (records.filter p).map value := by
  have hentries : (table.entries.filter fun e => start.inScan e.1) =
      (records.filter p).map fun r => (key r, value r) := by
    refine Entries.ext_mem (table.ascending.sublist List.filter_sublist)
      (List.pairwise_map.mpr hascending) ?_
    rintro ⟨k, v⟩
    rw [List.mem_filter, SortedMap.mem_entries, h k v, List.mem_map]
    constructor
    · rintro ⟨⟨r, hr, rfl, rfl⟩, hk⟩
      exact ⟨r, List.mem_filter.mpr ⟨hr, (hscan r hr).symm.trans hk⟩, rfl⟩
    · rintro ⟨r, hr, heq⟩
      obtain ⟨hr, hp⟩ := List.mem_filter.mp hr
      cases heq
      exact ⟨⟨r, hr, rfl, rfl⟩, (hscan r hr).trans hp⟩
  rw [scan, hentries, List.map_map]
  rfl

/-! ## Rows that are texts of records

Where the rows of a store are the texts of records, its operations can be told on the records, also
where it represents no table. -/

theorem decode_text (r : Record) : decode r.text = .ok r := by
  rw [decode, Record.ofText_text]

theorem mapM_decode (records : List Record) :
    (records.map Record.text).mapM decode = .ok records := by
  induction records with
  | nil => rfl
  | cons r rest ih =>
    rw [List.map_cons, List.mapM_cons, decode_text, ih]
    rfl

section Texts

variable {s : ByteStore} {m : SortedMap ByteKey Record}

/-- A put writes the record at its key, whatever it finds there. -/
theorem put_of_rows (h : s.rows = m.mapValues Record.text) (r : Record) :
    ∃ index, s.put r =
      .ok ⟨(m.insert (ByteKey.ofRecord r.key) r).mapValues Record.text, index⟩ := by
  rw [SortedMap.mapValues_insert, ← h]
  cases hget : m.get? (ByteKey.ofRecord r.key) with
  | none =>
    have hrow : s.rows.get? (ByteKey.ofRecord r.key) = none := by
      rw [h, SortedMap.get?_mapValues, hget, Option.map_none]
    refine ⟨s.index.insert (ByteKey.ofIndex r.object r.key) (ByteKey.ofRecord r.key), ?_⟩
    rw [ByteStore.put, hrow]
    rfl
  | some old =>
    have hrow : s.rows.get? (ByteKey.ofRecord r.key) = some old.text := by
      rw [h, SortedMap.get?_mapValues, hget, Option.map_some]
    refine ⟨(s.index.erase (ByteKey.ofIndex old.object r.key)).insert
      (ByteKey.ofIndex r.object r.key) (ByteKey.ofRecord r.key), ?_⟩
    rw [ByteStore.put, hrow]
    simp only [decode_text]
    rfl

theorem update_of_mem (h : s.rows = m.mapValues Record.text) {key : RecordKey} {r : Record}
    (hr : m.get? (ByteKey.ofRecord key) = some r) (change : Record.Change) :
    s.update key change =
      .ok { s with
        rows := (m.insert (ByteKey.ofRecord key) (r.apply change)).mapValues Record.text } := by
  rw [ByteStore.update, h, SortedMap.get?_mapValues, hr, SortedMap.mapValues_insert]
  show (decode r.text >>= _) = _
  rw [decode_text]
  rfl

theorem get?_of_rows (h : s.rows = m.mapValues Record.text) (key : RecordKey) :
    s.get? key = .ok (m.get? (ByteKey.ofRecord key)) := by
  rw [ByteStore.get?, h, SortedMap.get?_mapValues]
  cases m.get? (ByteKey.ofRecord key) with
  | none => rfl
  | some r =>
    show (decode r.text).map some = _
    rw [decode_text]
    rfl

theorem ofObject_of_rows (h : s.rows = m.mapValues Record.text) (object deployment : String) :
    s.ofObject object deployment =
      .ok ((scan s.index (ByteKey.ofObject object deployment)).filterMap m.get?) := by
  have hget : s.rows.get? = fun key => (m.get? key).map Record.text := by
    funext key
    rw [h, SortedMap.get?_mapValues]
  rw [ByteStore.ofObject, hget, ← List.map_filterMap, mapM_decode]

theorem latest_of_rows (h : s.rows = m.mapValues Record.text) (deployment : String) (limit : Nat) :
    s.latest deployment limit = .ok ((scan m (ByteKey.ofText deployment)).reverse.take limit) := by
  have hscan : scan s.rows (ByteKey.ofText deployment) =
      (scan m (ByteKey.ofText deployment)).map Record.text := by
    rw [scan, scan, h, SortedMap.mapValues, List.filter_map, List.map_map, List.map_map]
    rfl
  rw [ByteStore.latest, hscan, ← List.map_reverse, ← List.map_take, mapM_decode]

end Texts

/-! ## Represented tables -/

/-- A byte store that holds the records of a table and nothing else. -/
structure Represents (t : RecordTable) (s : ByteStore) : Prop where
  keyed : t.Keyed
  plain : ∀ r ∈ t.records.values, r.Plain
  rows : Lists t.records.values (fun r => ByteKey.ofRecord r.key) Record.text s.rows
  index : Lists t.records.values (fun r => ByteKey.ofIndex r.object r.key)
    (fun r => ByteKey.ofRecord r.key) s.index

namespace Represents

variable {t : RecordTable} {s : ByteStore}

theorem empty : Represents ⟨.empty⟩ ⟨.empty, .empty⟩ where
  keyed := RecordTable.keyed_empty
  plain _ hr := absurd hr List.not_mem_nil
  rows _ _ := ⟨nofun, fun ⟨_, hr, _⟩ => absurd hr List.not_mem_nil⟩
  index _ _ := ⟨nofun, fun ⟨_, hr, _⟩ => absurd hr List.not_mem_nil⟩

/-- The row of a record is its text. -/
theorem rows_of_mem (h : Represents t s) {r : Record} (hr : r ∈ t.records.values) :
    s.rows.get? (ByteKey.ofRecord r.key) = some r.text :=
  (h.rows _ _).mpr ⟨r, hr, rfl, rfl⟩

/-- There is a row at a key exactly if there is a record at it. -/
theorem rows_eq (h : Represents t s) (key : RecordKey) :
    s.rows.get? (ByteKey.ofRecord key) = (t.records.get? key).map Record.text := by
  refine Option.ext fun text => ?_
  rw [h.rows, Option.map_eq_some_iff]
  constructor
  · rintro ⟨r, hr, hkey, rfl⟩
    rw [ByteKey.ofRecord_injective hkey]
    exact ⟨r, h.keyed.mem_values.mp hr, rfl⟩
  · rintro ⟨r, hget, rfl⟩
    exact ⟨r, SortedMap.mem_values.mpr ⟨key, hget⟩,
      congrArg ByteKey.ofRecord (h.keyed key r hget).symm, rfl⟩

/-- The rows after a record was written. -/
theorem rows_insert (h : Represents t s) (r : Record) :
    Lists (t.put r).records.values (fun r => ByteKey.ofRecord r.key) Record.text
      (s.rows.insert (ByteKey.ofRecord r.key) r.text) := by
  refine Lists.put h.keyed (fun k text hk => ?_) fun r' _ hkey => ByteKey.ofRecord_injective hkey
  rw [h.rows]
  constructor
  · rintro ⟨r', hr', rfl, rfl⟩
    exact ⟨r', hr', fun heq => hk (congrArg ByteKey.ofRecord heq), rfl, rfl⟩
  · rintro ⟨r', hr', _, hk', htext⟩
    exact ⟨r', hr', hk', htext⟩

/-! ## The index -/

/-- An index without the row of a key. -/
def OmitsKey (t : RecordTable) (omitted : RecordKey) (index : SortedMap ByteKey ByteKey) : Prop :=
  ∀ key primary, index.get? key = some primary ↔
    ∃ r ∈ t.records.values, r.key ≠ omitted ∧ key = ByteKey.ofIndex r.object r.key ∧
      primary = ByteKey.ofRecord r.key

/-- Without a record at the key the index has no row to lose. -/
theorem omitsKey_of_fresh (h : Represents t s) {omitted : RecordKey}
    (hfresh : t.records.get? omitted = none) : OmitsKey t omitted s.index := by
  intro key primary
  rw [h.index]
  constructor
  · rintro ⟨r, hr, hkey, hprimary⟩
    refine ⟨r, hr, ?_, hkey, hprimary⟩
    rintro rfl
    rw [h.keyed.mem_values.mp hr] at hfresh
    cases hfresh
  · rintro ⟨r, hr, _, hkey, hprimary⟩
    exact ⟨r, hr, hkey, hprimary⟩

/-- The row of the record at the key is the only one to be lost. -/
theorem omitsKey_erase (h : Represents t s) {old : Record} (hold : old ∈ t.records.values) :
    OmitsKey t old.key (s.index.erase (ByteKey.ofIndex old.object old.key)) := by
  intro key primary
  rw [SortedMap.get?_erase]
  by_cases hkey : key = ByteKey.ofIndex old.object old.key
  · rw [if_pos hkey]
    refine ⟨nofun, ?_⟩
    rintro ⟨r, hr, hne, hkey', _⟩
    have hinj := ByteKey.ofIndex_injective (h.plain r hr).object (h.plain old hold).object
      (hkey'.symm.trans hkey)
    exact absurd hinj.2 hne
  · rw [if_neg hkey, h.index]
    constructor
    · rintro ⟨r, hr, hkey', hprimary⟩
      refine ⟨r, hr, ?_, hkey', hprimary⟩
      intro heq
      rw [h.keyed.eq_of_key_eq hr hold heq] at hkey'
      exact hkey hkey'
    · rintro ⟨r, hr, _, hkey', hprimary⟩
      exact ⟨r, hr, hkey', hprimary⟩

/-- The index after a record was written: its own row, and those of the other keys. -/
theorem index_insert (h : Represents t s) {r : Record} (hplain : r.Plain)
    {index : SortedMap ByteKey ByteKey} (hindex : OmitsKey t r.key index) :
    Lists (t.put r).records.values (fun r => ByteKey.ofIndex r.object r.key)
      (fun r => ByteKey.ofRecord r.key)
      (index.insert (ByteKey.ofIndex r.object r.key) (ByteKey.ofRecord r.key)) :=
  Lists.put h.keyed (fun k primary _ => hindex k primary) fun r' hr' hkey =>
    (ByteKey.ofIndex_injective (h.plain r' hr').object hplain.object hkey).2

/-! ## Writes -/

theorem plain_put (h : Represents t s) {r : Record} (hplain : r.Plain) :
    ∀ r' ∈ (t.put r).records.values, r'.Plain := by
  intro r' hr'
  rcases h.keyed.mem_values_put.mp hr' with rfl | ⟨hr', _⟩
  · exact hplain
  · exact h.plain r' hr'

/-- A record is written beside an index without the row of its key. -/
theorem insert (h : Represents t s) {r : Record} (hplain : r.Plain)
    {index : SortedMap ByteKey ByteKey} (hindex : OmitsKey t r.key index) :
    Represents (t.put r) ⟨s.rows.insert (ByteKey.ofRecord r.key) r.text,
      index.insert (ByteKey.ofIndex r.object r.key) (ByteKey.ofRecord r.key)⟩ where
  keyed := h.keyed.put r
  plain := h.plain_put hplain
  rows := h.rows_insert r
  index := h.index_insert hplain hindex

/-- Both stores put a record. -/
theorem put (h : Represents t s) {r : Record} (hplain : r.Plain) :
    ∃ s', s.put r = .ok s' ∧ Represents (t.put r) s' := by
  cases hget : t.records.get? r.key with
  | none =>
    refine ⟨_, ?_, h.insert hplain (h.omitsKey_of_fresh hget)⟩
    rw [ByteStore.put, h.rows_eq, hget]
    rfl
  | some old =>
    have hold : old ∈ t.records.values := SortedMap.mem_values.mpr ⟨r.key, hget⟩
    have homits := h.omitsKey_erase hold
    rw [h.keyed _ _ hget] at homits
    refine ⟨_, ?_, h.insert hplain homits⟩
    rw [ByteStore.put, h.rows_eq, hget, Option.map_some]
    simp only [decode_text]
    rfl

/-- A change leaves the index as it is. -/
theorem index_apply (h : Represents t s) {old : Record} (hold : old ∈ t.records.values)
    (change : Record.Change) :
    Lists (t.put (old.apply change)).records.values (fun r => ByteKey.ofIndex r.object r.key)
      (fun r => ByteKey.ofRecord r.key) s.index := by
  intro k primary
  simp only [h.index k primary, h.keyed.mem_values_put]
  constructor
  · rintro ⟨r, hr, hk, hprimary⟩
    by_cases hsame : r.key = old.key
    · rw [h.keyed.eq_of_key_eq hr hold hsame] at hk hprimary
      exact ⟨old.apply change, .inl rfl, by simpa using hk, by simpa using hprimary⟩
    · exact ⟨r, .inr ⟨hr, by simpa using hsame⟩, hk, hprimary⟩
  · rintro ⟨r, rfl | ⟨hr, _⟩, hk, hprimary⟩
    · exact ⟨old, hold, by simpa using hk, by simpa using hprimary⟩
    · exact ⟨r, hr, hk, hprimary⟩

/-- Both stores change a record, or refuse because there is none. -/
theorem update (h : Represents t s) (key : RecordKey) (change : Record.Change) :
    (t.update key change = .error (.recordNotFound key) ∧
        s.update key change = .error (.recordNotFound key)) ∨
      ∃ t' s', t.update key change = .ok t' ∧ s.update key change = .ok s' ∧ Represents t' s' := by
  cases hget : t.records.get? key with
  | none =>
    refine .inl ⟨?_, ?_⟩
    · rw [RecordTable.update, hget]
    · rw [ByteStore.update, h.rows_eq, hget]
      rfl
  | some old =>
    have hold : old ∈ t.records.values := SortedMap.mem_values.mpr ⟨key, hget⟩
    have hkey : old.key = key := h.keyed key old hget
    subst hkey
    have hplain : (old.apply change).Plain := by
      have hplain := h.plain old hold
      exact ⟨by simpa using hplain.object, by simpa using hplain.deployment⟩
    have hrows := h.rows_insert (old.apply change)
    rw [Record.key_apply] at hrows
    refine .inr ⟨t.put (old.apply change),
      { s with rows := s.rows.insert (ByteKey.ofRecord old.key) (old.apply change).text }, ?_, ?_, {
        keyed := h.keyed.put _
        plain := h.plain_put hplain
        rows := hrows
        index := h.index_apply hold change }⟩
    · rw [RecordTable.update, hget, RecordTable.put, Record.key_apply]
    · rw [ByteStore.update, h.rows_eq, hget]
      show (decode old.text >>= _) = _
      rw [decode_text]
      rfl

/-! ## Queries -/

theorem get?_eq (h : Represents t s) (key : RecordKey) :
    s.get? key = .ok (t.records.get? key) := by
  rw [ByteStore.get?, h.rows_eq]
  cases t.records.get? key with
  | none => rfl
  | some r =>
    show (decode r.text).map some = _
    rw [decode_text]
    rfl

/-- The scan for a target gives the rows of its records in their order. -/
theorem scan_rows (h : Represents t s) (deployment : String) :
    scan s.rows (ByteKey.ofText deployment) = (t.ofDeployment deployment).map Record.text := by
  refine h.rows.scan_eq (fun r hr => ?_) ?_
  · rw [Bool.eq_iff_iff, ByteKey.inScan_ofRecord (h.plain r hr).key, beq_iff_eq]
    rfl
  · refine (h.keyed.pairwise_values.filter _).imp_of_mem fun {r r'} hr hr' hlt => ?_
    rw [ByteKey.compare_ofRecord, hlt]
    exact (RecordTable.mem_ofDeployment.mp hr).2.trans (RecordTable.mem_ofDeployment.mp hr').2.symm

theorem ofDeployment_eq (h : Represents t s) (deployment : String) :
    s.ofDeployment deployment = .ok (t.ofDeployment deployment) := by
  rw [ByteStore.ofDeployment, h.scan_rows, mapM_decode]

theorem latest_eq (h : Represents t s) (deployment : String) (limit : Nat) :
    s.latest deployment limit = .ok (t.latest deployment limit) := by
  rw [ByteStore.latest, h.scan_rows, ← List.map_reverse, ← List.map_take, mapM_decode]
  rfl

/-- The scan of the index for an object and a target gives the keys of their records in order. -/
theorem scan_index (h : Represents t s) (object deployment : String) :
    scan s.index (ByteKey.ofObject object deployment) =
      (t.ofObject object deployment).map fun r => ByteKey.ofRecord r.key := by
  refine h.index.scan_eq (fun r hr => ?_) ?_
  · have hplain := h.plain r hr
    rw [Bool.eq_iff_iff, ByteKey.inScan_ofIndex hplain.object hplain.key, Bool.and_eq_true,
      beq_iff_eq, beq_iff_eq, and_comm]
    rfl
  · refine (h.keyed.pairwise_values.filter _).imp_of_mem fun {r r'} hr hr' hlt => ?_
    obtain ⟨_, hname, hobject⟩ := RecordTable.mem_ofObject.mp hr
    obtain ⟨_, hname', hobject'⟩ := RecordTable.mem_ofObject.mp hr'
    rw [hobject, hobject', ByteKey.compare_ofIndex object (hname.trans hname'.symm), hlt]

/-- The rows of listed records are their texts. -/
theorem filterMap_rows (h : Represents t s) {records : List Record}
    (hrecords : ∀ r ∈ records, r ∈ t.records.values) :
    (records.map fun r => ByteKey.ofRecord r.key).filterMap s.rows.get? =
      records.map Record.text := by
  induction records with
  | nil => rfl
  | cons r rest ih =>
    obtain ⟨hr, hrest⟩ := List.forall_mem_cons.mp hrecords
    rw [List.map_cons, List.filterMap_cons_some (h.rows_of_mem hr), ih hrest, List.map_cons]

theorem ofObject_eq (h : Represents t s) (object deployment : String) :
    s.ofObject object deployment = .ok (t.ofObject object deployment) := by
  have hmem : ∀ r ∈ t.ofObject object deployment, r ∈ t.records.values :=
    fun r hr => (RecordTable.mem_ofObject.mp hr).1
  rw [ByteStore.ofObject, h.scan_index, h.filterMap_rows hmem, mapM_decode]

end Represents

end ByteStore

/-! ## Runs -/

namespace RecordStore

/-- A write to a record store. -/
inductive Write where
  | put (r : Record)
  | update (key : RecordKey) (change : Record.Change)

namespace Write

/-- A write that puts no record whose names are not plain. -/
def Plain : Write → Prop
  | put r => r.Plain
  | update _ _ => True

/-- The answers that a write may get: only a change is refused, and only for want of its record. -/
def MayAnswer : Write → Except StoreError Unit → Prop
  | put _, answer => answer = .ok ()
  | update key _, answer => answer = .ok () ∨ answer = .error (.recordNotFound key)

variable {σ : Type} [RecordStore σ]

/-- The store after a write. -/
def attempt : Write → σ → Except StoreError σ
  | put r, s => RecordStore.put r s
  | update key change, s => RecordStore.update key change s

/-- The answer to a write and the store after it, which is the old one if the write is refused. -/
def run (w : Write) (s : σ) : Except StoreError Unit × σ :=
  match w.attempt s with
  | .ok s' => (.ok (), s')
  | .error fault => (.error fault, s)

theorem run_of_ok {w : Write} {s s' : σ} (h : w.attempt s = .ok s') : w.run s = (.ok (), s') := by
  rw [run, h]

theorem run_of_error {w : Write} {s : σ} {fault : StoreError} (h : w.attempt s = .error fault) :
    w.run s = (.error fault, s) := by
  rw [run, h]

end Write

/-- The answers to writes made one after the other, and the store after them. -/
def run {σ : Type} [RecordStore σ] : List Write → σ → List (Except StoreError Unit) × σ
  | [], s => ([], s)
  | w :: rest, s => ((w.run s).1 :: (run rest (w.run s).2).1, (run rest (w.run s).2).2)

/-- Two stores that give the same answer to every query. -/
structure Agree {σ τ : Type} [RecordStore σ] [RecordStore τ] (s : σ) (t : τ) : Prop where
  get? : ∀ key, RecordStore.get? s key = RecordStore.get? t key
  ofObject : ∀ object deployment,
    RecordStore.ofObject s object deployment = RecordStore.ofObject t object deployment
  ofDeployment : ∀ deployment,
    RecordStore.ofDeployment s deployment = RecordStore.ofDeployment t deployment
  latest : ∀ deployment limit,
    RecordStore.latest s deployment limit = RecordStore.latest t deployment limit

end RecordStore

namespace ByteStore.Represents

open RecordStore

theorem agree {t : RecordTable} {s : ByteStore} (h : Represents t s) : Agree s t where
  get? := h.get?_eq
  ofObject := h.ofObject_eq
  ofDeployment := h.ofDeployment_eq
  latest := h.latest_eq

/-- A write gets one answer from both stores and keeps the representation. -/
theorem run_write {t : RecordTable} {s : ByteStore} (h : Represents t s) {w : Write}
    (hplain : w.Plain) :
    w.MayAnswer (w.run t).1 ∧ (w.run s).1 = (w.run t).1 ∧ Represents (w.run t).2 (w.run s).2 := by
  cases w with
  | put r =>
    obtain ⟨s', hs, h'⟩ := h.put hplain
    have ht : (Write.put r).attempt t = .ok (t.put r) := rfl
    have hs : (Write.put r).attempt s = .ok s' := hs
    rw [Write.run_of_ok ht, Write.run_of_ok hs]
    exact ⟨rfl, rfl, h'⟩
  | update key change =>
    rcases h.update key change with ⟨ht, hs⟩ | ⟨t', s', ht, hs, h'⟩
    · have ht : (Write.update key change).attempt t = .error (.recordNotFound key) := ht
      have hs : (Write.update key change).attempt s = .error (.recordNotFound key) := hs
      rw [Write.run_of_error ht, Write.run_of_error hs]
      exact ⟨.inr rfl, rfl, h⟩
    · have ht : (Write.update key change).attempt t = .ok t' := ht
      have hs : (Write.update key change).attempt s = .ok s' := hs
      rw [Write.run_of_ok ht, Write.run_of_ok hs]
      exact ⟨.inl rfl, rfl, h'⟩

/-- So does a run of writes. -/
theorem run {t : RecordTable} {s : ByteStore} (h : Represents t s) {writes : List Write}
    (hplain : ∀ w ∈ writes, w.Plain) :
    List.Forall₂ Write.MayAnswer writes (RecordStore.run writes t).1 ∧
      (RecordStore.run writes s).1 = (RecordStore.run writes t).1 ∧
      Represents (RecordStore.run writes t).2 (RecordStore.run writes s).2 := by
  induction writes generalizing t s with
  | nil => exact ⟨.nil, rfl, h⟩
  | cons w rest ih =>
    obtain ⟨hw, hrest⟩ := List.forall_mem_cons.mp hplain
    obtain ⟨hmay, hanswer, h'⟩ := h.run_write hw
    obtain ⟨hmays, hanswers, h''⟩ := ih h' hrest
    exact ⟨.cons hmay hmays, List.cons_eq_cons.mpr ⟨hanswer, hanswers⟩, h''⟩

end ByteStore.Represents

namespace RecordStore

/-- From empty stores, both answer any writes of plain records alike, and all queries after them.
Every point of a run is the end of such writes. -/
theorem run_agrees (writes : List Write) (hplain : ∀ w ∈ writes, w.Plain) :
    List.Forall₂ Write.MayAnswer writes (run writes (empty : RecordTable)).1 ∧
      (run writes (empty : ByteStore)).1 = (run writes (empty : RecordTable)).1 ∧
      Agree (run writes (empty : ByteStore)).2 (run writes (empty : RecordTable)).2 := by
  obtain ⟨hmay, hanswers, h⟩ := ByteStore.Represents.empty.run hplain
  exact ⟨hmay, hanswers, h.agree⟩

/-- A record is put again with another object, between a change that is refused and one that is
made. -/
def moved : List Write := [
  .put (.minimal "live" 1 "app" "stack"),
  .update ⟨"live", 2⟩ (.setPlanStatus "DONE"),
  .put (.minimal "live" 1 "site" "stack"),
  .update ⟨"live", 1⟩ (.setPlanStatus "DONE")]

theorem run_agrees_moved :
    (run moved (empty : ByteStore)).1 =
        [.ok (), .error (.recordNotFound ⟨"live", 2⟩), .ok (), .ok ()] ∧
      ofObject (run moved (empty : ByteStore)).2 "app" "live" = .ok [] ∧
      ofObject (run moved (empty : ByteStore)).2 "site" "live" =
        .ok [{ Record.minimal "live" 1 "site" "stack" with planStatus := some "DONE" }] := by
  have hplain : ∀ w ∈ moved, w.Plain := by
    simp only [moved, List.forall_mem_cons]
    have hlive : Rollout.Plain "live" := by decide +kernel
    have happ : Rollout.Plain "app" := by decide +kernel
    have hsite : Rollout.Plain "site" := by decide +kernel
    exact ⟨⟨happ, hlive⟩, trivial, ⟨hsite, hlive⟩, trivial, List.forall_mem_nil _⟩
  obtain ⟨_, hanswers, hagree⟩ := run_agrees moved hplain
  rw [hanswers, hagree.ofObject, hagree.ofObject]
  decide +kernel

end RecordStore

end Rollout
