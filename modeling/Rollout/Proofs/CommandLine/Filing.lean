import Rollout.Proofs.CommandLine.Failing

/-!
# What command lines leave

Command lines keep the record stores of a folder filed, whether they fail or not
(`Folder.Filed.runWords`), and a folder of text files has no stores to begin with.  So every folder
that command lines made of text files has filed stores (`Folder.Filed.afterLines`), and what is known
of failing commands holds of it without a further condition (`failing_among_lines`).

The coordinator writes to a store by updates alone.  What every update keeps is therefore kept by its
programs, and a command keeps it with the store that it opened.
-/

namespace Rollout

open RecordStore

/-! ## Programs of the coordinator -/

namespace World

open Coordinator

variable {σ : Type} {P : σ → Prop} [RecordStore σ] [Steady σ] (settings : CoordinatorSettings)

theorem keeps_update (hP : ∀ s u, P s → P (Update.store s u)) (key : RecordKey)
    (change : Record.Change) :
    Keeps (fun w => P w.store)
      ((coordinator settings).askStore (collaborators.update key change)) := by
  intro w hw
  have hattempt : (Update.write ⟨key, change⟩).attempt w.store =
      RecordStore.update key change w.store := rfl
  have hmade : Final (w.update key change).1 ∧
      (w.update key change).2.store = Update.store w.store ⟨key, change⟩ := by
    rw [World.update, Update.store, Write.run, hattempt]
    cases hupdate : RecordStore.update key change w.store with
    | ok s => exact ⟨trivial, rfl⟩
    | error e => exact ⟨Steady.update hupdate, rfl⟩
  have hcall : collaborators.update key change settings.retry.attemptTimeout w =
      (some (w.update key change).1, (w.update key change).2) := rfl
  rw [run_askStore settings hmade.1 hcall, hmade.2]
  exact hP w.store ⟨key, change⟩ hw

theorem keeps_updateAll (hP : ∀ s u, P s → P (Update.store s u)) (change : Record.Change)
    (keys : List RecordKey) :
    Keeps (fun w => P w.store) ((coordinator settings).updateAll change keys) := by
  induction keys with
  | nil => exact .pure ()
  | cons key rest ih => exact (keeps_update settings hP key change).bind fun _ => ih

theorem keeps_changeRows (hP : ∀ s u, P s → P (Update.store s u)) (object deployment : String)
    (change : Record.Change) :
    Keeps (fun w => P w.store) ((coordinator settings).changeRows object deployment change) :=
  ((leaves_ofObject settings object deployment).keeps P).bind fun _ =>
    (keeps_updateAll settings hP change _).bind fun _ => .pure _

theorem keeps_handle (hP : ∀ s u, P s → P (Update.store s u)) (t : Trigger) :
    Keeps (fun w => P w.store) ((coordinator settings).handle t) := by
  refine ((leaves_lookup settings t.object t.deployment).keeps P).bind fun record => ?_
  refine ((leaves_admission settings t.execution t.workflow t.deployment).keeps P).bind
    fun superseded => ?_
  refine (keeps_changeRows settings hP t.object t.deployment _).bind fun rows => ?_
  exact ((leaves_abortIfBusy settings t record.stack).keeps P).bind fun _ => .pure _

end World

/-! ## Commands -/

section Commands

variable {α : Type}

theorem Idle.keepsFiled {x : Running (StateM Folder) α} (h : Idle x) : Keeps Folder.Filed x :=
  Leaves.keeps h Folder.Filed

theorem Folder.Filed.writeText {f f' : Folder} (h : f.Filed) {path text : String}
    (hwrite : f.writeText path text = .ok f') : f'.Filed := by
  rw [Folder.writeText] at hwrite
  cases hlocate : f.locate path with
  | error fault =>
    rw [hlocate] at hwrite
    cases hwrite
  | ok here =>
    simp only [hlocate, bind, Except.bind] at hwrite
    split at hwrite
    next => cases hwrite
    next =>
      cases hwrite
      refine h.set here ?_
      intro content htext
      cases htext

theorem keepsFiled_writeText (wrap : FileFault → CommandError) (path text : String) :
    Keeps Folder.Filed (require wrap (Disk.writeText path text : StateM Folder _)) := by
  refine keeps_attempt fun f _ f' h hf => ?_
  cases hwrite : f.writeText path text with
  | error fault =>
    rw [hwrite] at h
    cases h
  | ok f₁ =>
    rw [hwrite] at h
    cases h
    exact hf.writeText hwrite

theorem Folder.Filed.saveStore {f : Folder} (h : f.Filed) (path : String) {content : ByteStore}
    (hcontent : content.Filed) : (f.saveStore path content).Filed := by
  rw [Folder.saveStore]
  split
  next here _ =>
    refine h.set here ?_
    intro saved hsaved
    rw [← Entry.store.inj hsaved]
    exact hcontent
  next => exact h

/-- What is done to an open store, if it keeps the store filed. -/
theorem keepsFiled_openStore (path : String) {g : ByteStore → Running (StateM Folder) α}
    (hg : ∀ content, content.Filed → Keeps Folder.Filed (g content)) :
    Keeps Folder.Filed (require .storeNotOpened (Disk.openStore path) >>= g) := by
  intro f hf
  cases hopen : (require .storeNotOpened (Disk.openStore path) :
      Running (StateM Folder) ByteStore).run f with
  | mk opened f₁ =>
  cases opened with
  | error e =>
    rw [run_bind_error hopen]
    exact hf.kept (failsIn_openStore path e f₁ hopen)
  | ok content =>
    obtain ⟨here, hopened⟩ := exists_opened hopen
    rw [run_bind_ok hopen]
    exact hg content (hopened.filed hf) f₁ (hf.kept hopened.kept)

theorem keepsFiled_coordinate (settings : Settings) (path : String)
    {surroundings : ByteStore → World ByteStore}
    {program : Coordinator (World ByteStore) → Coordinating (World ByteStore) α}
    {g : Except CoordinatorError α → Running (StateM Folder) String}
    (hstore : ∀ store, (surroundings store).store = store)
    (hprogram : Keeps (fun w => w.store.Filed)
      (program (World.coordinator settings.coordinator)))
    (hg : ∀ r, Idle (g r)) :
    Keeps Folder.Filed (Command.coordinate settings path surroundings program >>= g) := by
  have hcoordinate : Keeps Folder.Filed (Command.coordinate settings path surroundings program) := by
    refine keepsFiled_openStore path fun content hcontent f hf => ?_
    have hbefore : (surroundings content).store.Filed := by
      rw [hstore]
      exact hcontent
    exact hf.saveStore path (hprogram (surroundings content) hbefore)
  exact hcoordinate.bind fun r => (hg r).keepsFiled

theorem keepsFiled_command (command : Command) (settings : Settings) (path : String) :
    Keeps Folder.Filed (command.run settings path) := by
  have hupdate : ∀ (s : ByteStore) (u : Update), s.Filed → (u.store s).Filed :=
    fun _ u h => h.store u
  cases command with
  | compile plan output =>
    refine (idle_compileFile settings plan).keepsFiled.bind fun graph => ?_
    cases output with
    | none => exact fun f hf => hf
    | some output => exact (keepsFiled_writeText _ output _).bind fun _ f hf => hf
  | registerOrigin record =>
    refine (idle_readText _ record).keepsFiled.bind fun text => ?_
    refine (idle_of_except _).keepsFiled.bind fun r => ?_
    refine keepsFiled_openStore path fun content hcontent => ?_
    refine .of_except fun stored hstored f hf => ?_
    cases hput : RecordStore.put r content with
    | error e =>
      rw [hput] at hstored
      cases hstored
    | ok s =>
      rw [hput] at hstored
      cases hstored
      exact hf.saveStore path (hcontent.put hput)
  | lookup object deployment =>
    refine keepsFiled_coordinate settings path (fun _ => rfl) ?_ fun r f => ?_
    · exact (World.leaves_lookup _ object deployment).keeps ByteStore.Filed
    · cases r <;> rfl
  | register execution object deployment =>
    refine keepsFiled_coordinate settings path (fun _ => rfl) ?_ fun r f => ?_
    · exact World.keeps_changeRows _ hupdate object deployment _
    · cases r <;> rfl
  | recordError deployment object message code =>
    refine keepsFiled_coordinate settings path (fun _ => rfl) ?_ fun r f => ?_
    · exact World.keeps_changeRows _ hupdate object deployment _
    · cases r <;> rfl
  | trigger t running busy =>
    refine keepsFiled_coordinate settings path (fun _ => rfl) ?_ fun r f => ?_
    · exact World.keeps_handle _ hupdate t
    · cases r <;> rfl

theorem keepsFiled_settings (i : Invocation) :
    Keeps Folder.Filed (i.settings : Running (StateM Folder) Settings) := by
  intro f hf
  have hkept : Folder.Kept (fun _ => False) f (i.settings.run f).2 :=
    .of_files (congrFun (i.leaves_settings f))
  exact hf.kept hkept

end Commands

/-! ## Command lines -/

/-- A command line keeps the stores of a folder filed. -/
theorem Folder.Filed.runWords {f : Folder} (h : f.Filed) (words : List String)
    (defaults : Invocation.Defaults) :
    ((Rollout.runWords words defaults : StateM Folder Report) f).2.Filed := by
  rw [Rollout.runWords]
  cases Invocation.ofWords words defaults with
  | error refusal =>
    cases refusal with
    | usage => exact h
    | help => exact h
  | ok i =>
    have hrun : ((i.run : Running (StateM Folder) String).run f).2.Filed := by
      rw [i.run_eq]
      refine Keeps.bind (keepsFiled_settings i) (fun s => ?_) f h
      exact keepsFiled_command i.command s _
    cases hcommand : (i.run : Running (StateM Folder) String).run f with
    | mk r f₁ =>
    rw [hcommand] at hrun
    refine (congrArg (fun p : Report × Folder => p.2.Filed) (run_bind_eq hcommand)).mpr ?_
    cases r with
    | ok output => exact hrun
    | error e => exact hrun

/-- The folder after command lines, each with the defaults it finds. -/
def Folder.afterLines (f : Folder) (lines : List (List String × Invocation.Defaults)) : Folder :=
  lines.foldl (fun f line => ((Rollout.runWords line.1 line.2 : StateM Folder Report) f).2) f

/-- So do any command lines, one after the other. -/
theorem Folder.Filed.afterLines {f : Folder} (h : f.Filed)
    (lines : List (List String × Invocation.Defaults)) : (f.afterLines lines).Filed := by
  induction lines generalizing f with
  | nil => exact h
  | cons line rest ih => exact ih (h.runWords line.1 line.2)

theorem Folder.Filed.addText {f f' : Folder} (h : f.Filed) {path text : String}
    (hadd : f.addText path text = .ok f') : f'.Filed := by
  rw [Folder.addText] at hadd
  cases hmade : f.makeDirectories (parentPath path) with
  | error fault =>
    rw [hmade] at hadd
    cases hadd
  | ok f₁ =>
    rw [hmade] at hadd
    have hkept : Kept (fun _ => False) f f₁ := .of_files (file?_makeDirectories hmade)
    exact (h.kept hkept).writeText hadd

/-- A folder of text files has no stores to begin with. -/
theorem Folder.filed_ofFiles {files : List (String × String)} {f : Folder}
    (h : Folder.ofFiles files = .ok f) : f.Filed := by
  suffices hfrom : ∀ {start : Folder}, start.Filed →
      files.foldlM (fun f file => f.addText file.1 file.2) start = .ok f → f.Filed from
    hfrom filed_empty h
  clear h
  induction files with
  | nil => exact fun hstart h => Except.ok.inj h ▸ hstart
  | cons file rest ih =>
    intro start hstart h
    rw [List.foldlM_cons] at h
    cases hadd : start.addText file.1 file.2 with
    | error fault =>
      rw [hadd] at h
      cases h
    | ok next =>
      rw [hadd] at h
      exact ih (hstart.addText hadd) h

/-- Among command lines on a folder that began with text files, one that fails leaves every file as it
was, but for its own record store, which may have been made where there was no file or an empty one.
All stores that can be opened are those that could be opened before. -/
theorem failing_among_lines {files : List (String × String)} {start f' : Folder}
    (hstart : Folder.ofFiles files = .ok start) (lines : List (List String × Invocation.Defaults))
    {words : List String} {defaults : Invocation.Defaults} {report : Report}
    (hrun : (runWords words defaults : StateM Folder Report) (start.afterLines lines) =
      (report, f'))
    (hcode : report.code ≠ 0) :
    (start.afterLines lines).Kept (OwnStore words defaults (start.afterLines lines) f') f' ∧
      ∀ here, f'.records? here = (start.afterLines lines).records? here := by
  have hfiled := (Folder.filed_ofFiles hstart).afterLines lines
  have hkept := kept_of_failing hfiled hrun hcode
  exact ⟨hkept, hkept.records?_eq⟩

end Rollout
