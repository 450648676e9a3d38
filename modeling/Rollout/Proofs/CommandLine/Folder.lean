import Rollout.CommandLine.Folder
import Rollout.Proofs.Coordinator.Failing

/-!
# The files of a folder

Making directories and opening a record store write to a folder, but hardly to its files: directories
are made where nothing was, and a store is made where there was no file or an empty one.  Two folders
that differ in no more than this are told by `Folder.Kept`, which is about files only
(`Folder.file?`).  Folders that are so related hold the same records, as an empty or missing file is
opened as the store without records (`Folder.Kept.records?_eq`).

An opened store stands at the location of its path, and keeping it as it was opened changes nothing
(`Folder.Opened.saveStore_eq`).
-/

namespace Rollout.Folder

open RecordStore

/-- The file at a location.  A directory is no file. -/
def file? (f : Folder) (here : Location) : Option Entry :=
  match f.entry? here with
  | some .directory => none
  | found => found

/-- The record store that the file at a location is opened as, if it can be. -/
def records? (f : Folder) (here : Location) : Option ByteStore :=
  match f.file? here with
  | none => some empty
  | some (.text content) => if content = "" then some empty else none
  | some (.store content) => some content
  | some .directory => none

/-- Every store in the folder has its records under their keys. -/
def Filed (f : Folder) : Prop :=
  ∀ here content, f.entry? here = some (.store content) → content.Filed

/-- Each file is as it was, except that a location of its own may have become a store without
records where there was no file or an empty one. -/
def Kept (own : Location → Prop) (f f' : Folder) : Prop :=
  ∀ here, f'.file? here = f.file? here ∨
    own here ∧ (f.file? here = none ∨ f.file? here = some (.text "")) ∧
      f'.file? here = some (.store empty)

section Kept

variable {own : Location → Prop} {f f₁ f' : Folder}

theorem Kept.of_files (h : ∀ here, f'.file? here = f.file? here) : Kept own f f' :=
  fun here => .inl (h here)

theorem Kept.behind (hfiles : ∀ here, f₁.file? here = f.file? here) (h : Kept own f₁ f') :
    Kept own f f' := by
  intro here
  rw [← hfiles here]
  exact h here

theorem Kept.imp {own' : Location → Prop} (himp : ∀ here, own here → own' here)
    (h : Kept own f f') : Kept own' f f' :=
  fun here => (h here).imp_right fun ⟨hown, hblank⟩ => ⟨himp here hown, hblank⟩

/-- Every store that can be opened is the one that it was. -/
theorem Kept.records?_eq (h : Kept own f f') (here : Location) :
    f'.records? here = f.records? here := by
  rcases h here with hsame | ⟨-, hnone | hempty, hstore⟩
  · rw [records?, hsame, records?]
  · rw [records?, hstore, records?, hnone]
  · rw [records?, hstore, records?, hempty]
    exact (if_pos rfl).symm

end Kept

theorem entry?_outside {f : Folder} {here : Location} (h : Location.isOutside here = true) :
    f.entry? here = some .directory := if_pos h

theorem entry?_inside {f : Folder} {here : Location} (h : Location.isOutside here = false) :
    f.entry? here = f.entries.get? here := if_neg (by simp [h])

theorem file?_eq_store {f : Folder} {here : Location} {content : ByteStore} :
    f.file? here = some (.store content) ↔ f.entry? here = some (.store content) := by
  rw [file?]
  split
  next h => simp [h]
  next => rfl

theorem filed_empty : Filed {} := by
  intro here content hentry
  cases hout : Location.isOutside here with
  | true =>
    rw [entry?_outside hout] at hentry
    cases hentry
  | false =>
    rw [entry?_inside hout] at hentry
    cases hentry

theorem Filed.kept {own : Location → Prop} {f f' : Folder} (hfiled : f.Filed) (h : Kept own f f') :
    f'.Filed := by
  intro here content hentry
  rw [← file?_eq_store] at hentry
  rcases h here with hsame | ⟨-, -, hempty⟩
  · rw [hsame, file?_eq_store] at hentry
    exact hfiled here content hentry
  · rw [hempty] at hentry
    rw [← Entry.store.inj (Option.some.inj hentry)]
    exact ByteStore.filed_empty

/-- An entry that is no store, or a filed one, may be put into a folder. -/
theorem Filed.set {f : Folder} (hfiled : f.Filed) (here : Location) {e : Entry}
    (he : ∀ content, e = .store content → content.Filed) : (f.set here e).Filed := by
  intro other content hentry
  cases hout : Location.isOutside other with
  | true =>
    rw [entry?_outside hout] at hentry
    cases hentry
  | false =>
    rw [entry?_inside hout, Folder.set, SortedMap.get?_insert] at hentry
    split at hentry
    next => exact he content (Option.some.inj hentry)
    next => exact hfiled other content ((entry?_inside hout).trans hentry)

/-! ## Directories -/

section Set

variable {f : Folder} {here : Location}

/-- What is no directory lies in the folder. -/
theorem isOutside_eq_false (h : f.entry? here ≠ some .directory) :
    Location.isOutside here = false := by
  cases hout : Location.isOutside here with
  | false => rfl
  | true => exact absurd (entry?_outside hout) h

theorem entry?_set (h : f.entry? here ≠ some .directory) (e : Entry) (other : Location) :
    entry? (f.set here e) other = if other = here then some e else f.entry? other := by
  cases hout : Location.isOutside other with
  | true =>
    have hother : other ≠ here := by
      rintro rfl
      exact h (entry?_outside hout)
    rw [entry?_outside hout, if_neg hother, entry?_outside hout]
  | false => rw [entry?_inside hout, entry?_inside hout, set, SortedMap.get?_insert]

theorem file?_set (h : f.entry? here ≠ some .directory) (e : Entry) {other : Location}
    (hother : other ≠ here) : (f.set here e).file? other = f.file? other := by
  rw [file?, entry?_set h, if_neg hother, file?]

/-- Names lead where they led before something was put in the place of no directory. -/
theorem follow_set (h : f.entry? here ≠ some .directory) (e : Entry) {there : Location} :
    ∀ {start : Location} {names : List String}, f.follow start names = .ok there →
      (f.set here e).follow start names = .ok there
  | _, [], hfollow => hfollow
  | start, name :: rest, hfollow => by
      have hstart : f.entry? start = some .directory := by
        rw [follow] at hfollow
        cases hentry : f.entry? start with
        | none =>
          rw [hentry] at hfollow
          cases hfollow
        | some found =>
          rw [hentry] at hfollow
          cases found with
          | directory => rfl
          | text content => cases hfollow
          | store content => cases hfollow
      have hother : start ≠ here := by
        rintro rfl
        exact h hstart
      have hset : entry? (f.set here e) start = some .directory := by
        rw [entry?_set h, if_neg hother, hstart]
      rw [follow, hstart] at hfollow
      rw [follow, hset]
      simp only at hfollow ⊢
      by_cases hstay : (name = "" || name = ".") = true
      · rw [if_pos hstay] at hfollow ⊢
        exact follow_set h e hfollow
      · rw [if_neg hstay] at hfollow ⊢
        by_cases habove : name = ".."
        · rw [if_pos habove] at hfollow ⊢
          exact follow_set h e hfollow
        · rw [if_neg habove] at hfollow ⊢
          exact follow_set h e hfollow

end Set

/-- Directories are made where there is no file. -/
theorem file?_makeAlong : ∀ {names : List String} {f f' : Folder} {here : Location},
    f.makeAlong here names = .ok f' → ∀ other, f'.file? other = f.file? other
  | [], f, f', _, h, other => by
      rw [makeAlong] at h
      cases h
      rfl
  | name :: rest, f, f', here, h, other => by
      rw [makeAlong] at h
      split at h
      next => exact file?_makeAlong h other
      next =>
      split at h
      next => exact file?_makeAlong h other
      next =>
        cases hentry : f.entry? (here ++ [name]) with
        | none =>
          simp only [hentry] at h
          have hfree : f.entry? (here ++ [name]) ≠ some .directory := by
            rw [hentry]
            simp
          rw [file?_makeAlong h other]
          by_cases hother : other = here ++ [name]
          · rw [hother, file?, entry?_set hfree, if_pos rfl, file?, hentry]
          · exact file?_set hfree _ hother
        | some found =>
          simp only [hentry] at h
          cases found with
          | directory => exact file?_makeAlong h other
          | text content => cases h
          | store content => cases h

theorem file?_makeDirectories {f f' : Folder} {path : String}
    (h : f.makeDirectories path = .ok f') (other : Location) : f'.file? other = f.file? other :=
  file?_makeAlong h other

/-! ## Stores -/

/-- Where there is no file or an empty one, a store is made. -/
theorem kept_set_empty {f : Folder} {here : Location}
    (h : f.entry? here = none ∨ f.entry? here = some (.text "")) :
    Kept (· = here) f (f.set here (.store empty)) := by
  have hfree : f.entry? here ≠ some .directory := by
    rcases h with h | h <;> simp [h]
  intro other
  by_cases hother : other = here
  · subst hother
    refine .inr ⟨rfl, ?_, ?_⟩
    · rcases h with h | h
      · exact .inl (by rw [file?, h])
      · exact .inr (by rw [file?, h])
    · rw [file?, entry?_set hfree, if_pos rfl]
  · exact .inl (file?_set hfree _ hother)

/-- What opening a record store leaves: the store stands at its path.  It was there before, or a store
without records was made of no file or an empty one. -/
structure Opened (path : String) (f f' : Folder) (content : ByteStore) (here : Location) : Prop where
  located : f'.locate path = .ok here
  entry : f'.entry? here = some (.store content)
  filed : f.Filed → content.Filed
  kept : Kept (· = here) f f'

section Opened

variable {path : String} {f f₁ f' : Folder} {content : ByteStore} {here : Location}

theorem opened_of_store (hfiles : ∀ other, f₁.file? other = f.file? other)
    (hlocate : f₁.locate path = .ok here) (hentry : f₁.entry? here = some (.store content)) :
    Opened path f f₁ content here := by
  have hkept : Kept (· = here) f f₁ := .of_files hfiles
  exact ⟨hlocate, hentry, fun hfiled => hfiled.kept hkept here content hentry, hkept⟩

theorem opened_of_blank (hfiles : ∀ other, f₁.file? other = f.file? other)
    (hlocate : f₁.locate path = .ok here)
    (hblank : f₁.entry? here = none ∨ f₁.entry? here = some (.text "")) :
    Opened path f (f₁.set here (.store empty)) empty here := by
  have hfree : f₁.entry? here ≠ some .directory := by
    rcases hblank with h | h <;> simp [h]
  refine ⟨follow_set hfree _ hlocate, ?_, fun _ => ByteStore.filed_empty,
    .behind hfiles (kept_set_empty hblank)⟩
  rw [entry?_set hfree, if_pos rfl]

theorem exists_opened (h : f.openStore path = .ok (content, f')) :
    ∃ here, Opened path f f' content here := by
  rw [openStore] at h
  cases hmade : f.makeDirectories (parentPath path) with
  | error fault =>
    rw [hmade] at h
    cases h
  | ok f₁ =>
    have hfiles := file?_makeDirectories hmade
    rw [hmade] at h
    simp only [Except.mapError, bind, Except.bind] at h
    cases hlocate : f₁.locate path with
    | error fault =>
      rw [hlocate] at h
      cases h
    | ok here =>
      simp only [hlocate] at h
      cases hentry : f₁.entry? here with
      | none =>
        rw [hentry] at h
        cases h
        exact ⟨here, opened_of_blank hfiles hlocate (.inl hentry)⟩
      | some found =>
        rw [hentry] at h
        cases found with
        | directory => cases h
        | store opened =>
          cases h
          exact ⟨here, opened_of_store hfiles hlocate hentry⟩
        | text text =>
          by_cases hempty : text = ""
          · subst hempty
            cases h
            exact ⟨here, opened_of_blank hfiles hlocate (.inr hentry)⟩
          · simp at h

/-- Keeping an open store as it is. -/
theorem Opened.saveStore_eq (h : Opened path f f' content here) : f'.saveStore path content = f' := by
  rw [saveStore, h.located]
  have hfile : f'.entry? here ≠ some .directory := by
    rw [h.entry]
    simp
  have hget : f'.entries.get? here = some (.store content) := by
    rw [← entry?_inside (isOutside_eq_false hfile)]
    exact h.entry
  show Folder.mk (f'.entries.insert here (.store content)) = f'
  rw [← SortedMap.modify_of_get? hget fun e => e, SortedMap.modify_eq_self fun _ _ => rfl]

end Opened

end Rollout.Folder
