import Rollout.CommandLine.Run
import Rollout.Proofs.CommandLine.Folder

/-!
# Commands that fail

A command line that fails leaves the files and the stored records of a folder as they were
(`runWords_failing`).  Most commands only read before they can still fail (`Idle`).  The others open
the record store, which makes one where there is none, and what may fail after that leaves the store
alone: a put, which is refused as a whole, and the programs of the coordinator (`World.Spares`).

Along the parts of a command, in their order, it is proved in what folder it ends if it fails
(`FailsIn`).  The stores of the folder are filed: a store whose rows stand under foreign keys may list
a record that cannot be found, and such a failure comes after other rows have been written.
-/

namespace Rollout

/-! ## Programs on a folder -/

/-- The program leaves every folder as it is. -/
abbrev Idle {α : Type} (x : Running (StateM Folder) α) : Prop := Leaves id x

section Parts

variable {α β : Type} {x : Running (StateM Folder) α} {g : α → Running (StateM Folder) β}
  {f : Folder}

theorem idle_of_except (r : Except CommandError α) :
    Idle (ExceptT.mk (pure r) : Running (StateM Folder) α) := fun _ => rfl

theorem Idle.leaves {τ : Type} (h : Idle x) (part : Folder → τ) : Leaves part x :=
  fun f => congrArg part (h f)

/-- What leaves the folder alone may come first. -/
theorem Idle.failsIn_bind {P : Folder → Prop} (hx : Idle x) (hf : P f)
    (hg : ∀ a, FailsIn P (g a) f) : FailsIn P (x >>= g) f := by
  refine Leaves.failsIn_bind hx ?_ fun a f' hsame => ?_
  · rintro f' rfl
    exact hf
  · obtain rfl : f' = f := hsame
    exact hg a

end Parts

/-! ## Operations on the disk -/

section Attempts

variable {τ ε α : Type} {wrap : ε → CommandError} {change : Folder → Except ε (α × Folder)}
  {f f' : Folder} {P : Folder → Prop}

theorem run_require {operation : StateM Folder (Except ε α)} {r : Except ε α}
    (h : operation f = (r, f')) : (require wrap operation).run f = (r.mapError wrap, f') :=
  run_bind_eq h

theorem run_attempt_ok {a : α} (h : change f = .ok (a, f')) :
    (require wrap (Folder.attempt change)).run f = (.ok a, f') := by
  have hattempt : Folder.attempt change f = (.ok a, f') := by rw [Folder.attempt, h]
  exact run_require hattempt

theorem run_attempt_error {e : ε} (h : change f = .error e) :
    (require wrap (Folder.attempt change)).run f = (.error (wrap e), f) := by
  have hattempt : Folder.attempt change f = (.error e, f) := by rw [Folder.attempt, h]
  exact run_require hattempt

theorem change_of_attempt {a : α} (h : (require wrap (Folder.attempt change)).run f = (.ok a, f')) :
    change f = .ok (a, f') := by
  cases hchange : change f with
  | ok p =>
    cases (run_attempt_ok hchange).symm.trans h
    rfl
  | error e => cases (run_attempt_error hchange).symm.trans h

/-- A change that fails is none. -/
theorem failsIn_attempt (hf : P f) : FailsIn P (require wrap (Folder.attempt change)) f := by
  intro e f' h
  cases hchange : change f with
  | ok p => cases (run_attempt_ok hchange).symm.trans h
  | error fault =>
    cases (run_attempt_error hchange).symm.trans h
    exact hf

theorem keeps_attempt (h : ∀ f a f', change f = .ok (a, f') → P f → P f') :
    Keeps P (require wrap (Folder.attempt change)) := by
  intro f hf
  cases hchange : change f with
  | ok p =>
    rw [run_attempt_ok hchange]
    exact h f p.1 p.2 hchange hf
  | error fault =>
    rw [run_attempt_error hchange]
    exact hf

theorem leaves_attempt {part : Folder → τ}
    (h : ∀ f a f', change f = .ok (a, f') → part f' = part f) :
    Leaves part (require wrap (Folder.attempt change)) := by
  intro f
  refine keeps_attempt (P := (part · = part f)) (fun f₁ a f₂ hchange hf => ?_) f rfl
  rw [h f₁ a f₂ hchange, hf]

end Attempts

/-- Making directories leaves the files alone. -/
theorem leaves_makeDirectories (wrap : FileFault → CommandError) (path : String) :
    Leaves Folder.file? (require wrap (Disk.makeDirectories path : StateM Folder _)) := by
  refine leaves_attempt fun f _ f' h => ?_
  cases hmade : f.makeDirectories path with
  | error fault =>
    rw [hmade] at h
    cases h
  | ok f₁ =>
    rw [hmade] at h
    cases h
    exact funext (Folder.file?_makeDirectories hmade)

/-- Reading a file changes nothing. -/
theorem readText_apply (f : Folder) (path : String) :
    (Disk.readText path : StateM Folder _) f = (f.readText path, f) := by
  show Folder.attempt (fun f => (f.readText path).map (·, f)) f = _
  rw [Folder.attempt]
  cases f.readText path <;> rfl

theorem idle_readText (wrap : FileFault → CommandError) (path : String) :
    Idle (require wrap (Disk.readText path : StateM Folder _)) :=
  .of_run (fun f => run_require (readText_apply f path)) fun _ => rfl

theorem idle_load (path : String) : Idle (Settings.load path : Running (StateM Folder) Settings) := by
  have hread : Idle (liftM (Disk.readText path : StateM Folder _) :
      Running (StateM Folder) (Except FileFault String)) :=
    .of_run (fun f => run_liftM (readText_apply f path)) fun _ => rfl
  refine hread.bind fun answer => ?_
  split
  next => exact fun _ => rfl
  next => exact fun _ => rfl
  next => exact fun _ => rfl
  next =>
    split
    next => exact fun _ => rfl
    next => exact fun _ => rfl

theorem idle_compileFile (settings : Settings) (path : String) :
    Idle (Command.compileFile settings path : Running (StateM Folder) StateGraph) :=
  (idle_readText _ path).bind fun _ => (idle_of_except _).bind fun _ => idle_of_except _

/-! ## Commands -/

section Commands

variable {f : Folder}

/-- Files are as they were, but for the record store of a path. -/
def KeptBut (path : String) (f f' : Folder) : Prop :=
  f.Kept (fun here => f'.locate path = .ok here) f'

theorem keptBut_self (path : String) (f : Folder) : KeptBut path f f :=
  .of_files fun _ => rfl

theorem failsIn_openStore (path : String) :
    FailsIn (KeptBut path f) (require .storeNotOpened (Disk.openStore path)) f :=
  failsIn_attempt (keptBut_self path f)

theorem exists_opened {path : String} {content : ByteStore} {f' : Folder}
    (h : (require .storeNotOpened (Disk.openStore path) :
      Running (StateM Folder) ByteStore).run f = (.ok content, f')) :
    ∃ here, Folder.Opened path f f' content here := by
  have hopen := change_of_attempt h
  exact Folder.exists_opened hopen

theorem Folder.Opened.keptBut {path : String} {content : ByteStore} {f' : Folder} {here : Location}
    (h : Opened path f f' content here) : KeptBut path f f' := by
  refine h.kept.imp ?_
  rintro other rfl
  exact h.located

section Coordinate

variable {α : Type} {settings : Settings} {path : String} {surroundings : ByteStore → World ByteStore}
  {program : Coordinator (World ByteStore) → Coordinating (World ByteStore) α}

/-- A program of the coordinator gives its outcome to the command, which keeps the store. -/
theorem run_coordinate {content : ByteStore} {f₁ : Folder} {r : Except CoordinatorError α}
    {w : World ByteStore}
    (hopen : (require .storeNotOpened (Disk.openStore path) :
      Running (StateM Folder) ByteStore).run f = (.ok content, f₁))
    (hprogram : (program (World.coordinator settings.coordinator)).run (surroundings content) =
      (r, w)) :
    (Command.coordinate settings path surroundings program : Running (StateM Folder) _).run f =
      (.ok r, f₁.saveStore path w.store) := by
  refine (run_bind_ok hopen).trans ?_
  show ((fun p => (Except.ok p.1, f₁.saveStore path p.2.store))
    ((program (World.coordinator settings.coordinator)).run (surroundings content)) :
      Except CommandError _ × Folder) = _
  rw [hprogram]

/-- A command that runs a program of the coordinator, and fails if the program does. -/
theorem failsIn_coordinate {g : Except CoordinatorError α → Running (StateM Folder) String}
    (hstore : ∀ store, (surroundings store).store = store)
    (hspares : ∀ store, store.Filed →
      World.Spares (program (World.coordinator settings.coordinator)) (surroundings store))
    (hok : ∀ a f', FailsIn (KeptBut path f) (g (.ok a)) f') (herror : ∀ e, Idle (g (.error e)))
    (hfiled : f.Filed) :
    FailsIn (KeptBut path f) (Command.coordinate settings path surroundings program >>= g) f := by
  intro e f' h
  cases hopen : (require .storeNotOpened (Disk.openStore path) :
      Running (StateM Folder) ByteStore).run f with
  | mk opened f₁ =>
  cases opened with
  | error fault =>
    have hrun : (Command.coordinate settings path surroundings program :
        Running (StateM Folder) _).run f = (.error fault, f₁) := run_bind_error hopen
    rw [run_bind_error hrun] at h
    cases h
    exact failsIn_openStore path e f' hopen
  | ok content =>
    obtain ⟨here, hopened⟩ := exists_opened hopen
    cases hprogram : (program (World.coordinator settings.coordinator)).run
        (surroundings content) with
    | mk r w =>
    rw [run_bind_ok (run_coordinate hopen hprogram)] at h
    cases r with
    | ok a => exact hok a _ e f' h
    | error refused =>
      have hsame : w.store = content :=
        (hspares content (hopened.filed hfiled) refused w hprogram).trans (hstore content)
      rw [hsame, hopened.saveStore_eq] at h
      obtain rfl : f' = f₁ := (herror refused).run h
      exact hopened.keptBut

end Coordinate

theorem failsIn_command (command : Command) (settings : Settings) (path : String)
    (hfiled : f.Filed) : FailsIn (KeptBut path f) (command.run settings path) f := by
  cases command with
  | compile plan output =>
    refine (idle_compileFile settings plan).failsIn_bind (keptBut_self path f) fun graph => ?_
    cases output with
    | none => exact failsIn_pure _
    | some output =>
      exact FailsIn.bind (failsIn_attempt (keptBut_self path f)) fun _ f' _ => failsIn_pure _
  | registerOrigin record =>
    refine (idle_readText _ record).failsIn_bind (keptBut_self path f) fun text => ?_
    refine (idle_of_except _).failsIn_bind (keptBut_self path f) fun r => ?_
    refine FailsIn.bind (failsIn_openStore path) fun store f₁ hopen => ?_
    obtain ⟨here, hopened⟩ := exists_opened hopen
    refine (idle_of_except _).failsIn_bind hopened.keptBut fun written => ?_
    exact FailsIn.bind (failsIn_liftM _) fun _ f₂ _ => failsIn_pure _
  | lookup object deployment =>
    refine failsIn_coordinate (fun _ => rfl) (fun store hstore => ?_)
      (fun r f' => failsIn_pure _) (fun e f' => rfl) hfiled
    exact (World.leaves_lookup _ object deployment).failsIn fun _ hsame => hsame
  | register execution object deployment =>
    refine failsIn_coordinate (fun _ => rfl) (fun store hstore => ?_)
      (fun r f' => failsIn_pure _) (fun e f' => rfl) hfiled
    exact World.spares_changeRows hstore.listable object deployment _
  | recordError deployment object message code =>
    refine failsIn_coordinate (fun _ => rfl) (fun store hstore => ?_)
      (fun r f' => failsIn_pure _) (fun e f' => rfl) hfiled
    exact World.spares_changeRows hstore.listable object deployment _
  | trigger t running busy =>
    refine failsIn_coordinate (fun _ => rfl) (fun store hstore => ?_)
      (fun r f' => failsIn_pure _) (fun e f' => rfl) hfiled
    exact World.spares_handle hstore.listable t

end Commands

/-! ## Command lines -/

namespace Invocation

/-- The settings that an invocation runs under. -/
def settings (i : Invocation) : Running (StateM Folder) Settings := do
  require .dataDirectory (Disk.makeDirectories i.dataDirectory)
  Settings.load i.settingsPath

/-- The path of the record store is that of the settings. -/
theorem run_eq (i : Invocation) : (i.run : Running (StateM Folder) String) =
    i.settings >>= fun s => i.command.run s (s.recordsPath i.dataDirectory) := by
  rw [run, settings, bind_assoc]

/-- Neither making the data directory nor reading the settings changes a file. -/
theorem leaves_settings (i : Invocation) :
    Leaves Folder.file? (i.settings : Running (StateM Folder) Settings) :=
  (leaves_makeDirectories _ _).bind fun _ => (idle_load i.settingsPath).leaves Folder.file?

/-- A location is that of the record store of an invocation, which runs in the first folder and
leaves the second one. -/
def OwnStore (i : Invocation) (f f' : Folder) (here : Location) : Prop :=
  ∃ settings, (i.settings.run f).1 = .ok settings ∧
    f'.locate (settings.recordsPath i.dataDirectory) = .ok here

theorem kept_of_error {i : Invocation} {f f' : Folder} {e : CommandError} (hfiled : f.Filed)
    (hrun : (i.run : Running (StateM Folder) String).run f = (.error e, f')) :
    f.Kept (i.OwnStore f f') f' := by
  rw [i.run_eq] at hrun
  cases hsettings : i.settings.run f with
  | mk r f₁ =>
  have hfiles := congrFun (i.leaves_settings.run hsettings)
  cases r with
  | error e' =>
    rw [run_bind_error hsettings] at hrun
    cases hrun
    exact .of_files hfiles
  | ok settings =>
    rw [run_bind_ok hsettings] at hrun
    have hsame : Folder.Kept (i.OwnStore f f') f f₁ := .of_files hfiles
    have hkept := failsIn_command i.command settings _ (hfiled.kept hsame) e f' hrun
    refine .behind hfiles (hkept.imp fun here hpath => ?_)
    exact ⟨settings, by rw [hsettings], hpath⟩

end Invocation

/-- A location is that of the record store of a command line. -/
def OwnStore (words : List String) (defaults : Invocation.Defaults) (f f' : Folder)
    (here : Location) : Prop :=
  ∃ i, Invocation.ofWords words defaults = .ok i ∧ i.OwnStore f f' here

theorem kept_of_failing {words : List String} {defaults : Invocation.Defaults} {f f' : Folder}
    {report : Report} (hfiled : f.Filed)
    (hrun : (runWords words defaults : StateM Folder Report) f = (report, f'))
    (hcode : report.code ≠ 0) : f.Kept (OwnStore words defaults f f') f' := by
  rw [runWords] at hrun
  cases hwords : Invocation.ofWords words defaults with
  | error refusal =>
    rw [hwords] at hrun
    cases refusal with
    | usage =>
      cases hrun
      exact .of_files fun _ => rfl
    | help =>
      cases hrun
      exact absurd rfl hcode
  | ok i =>
    rw [hwords] at hrun
    cases hcommand : (i.run : Running (StateM Folder) String).run f with
    | mk r f₁ =>
    have hreport := (run_bind_eq hcommand).symm.trans hrun
    cases r with
    | ok output =>
      cases hreport
      exact absurd rfl hcode
    | error e =>
      cases hreport
      exact (Invocation.kept_of_error hfiled hcommand).imp fun here hown => ⟨i, hwords, hown⟩

/-- A command line that fails leaves every file as it was, but for its own record store, which may
have been made where there was no file or an empty one.  All stores that can be opened are those
that could be opened before. -/
theorem runWords_failing {words : List String} {defaults : Invocation.Defaults} {f f' : Folder}
    {report : Report} (hfiled : f.Filed)
    (hrun : (runWords words defaults : StateM Folder Report) f = (report, f'))
    (hcode : report.code ≠ 0) :
    f.Kept (OwnStore words defaults f f') f' ∧ ∀ here, f'.records? here = f.records? here := by
  have hkept := kept_of_failing hfiled hrun hcode
  exact ⟨hkept, hkept.records?_eq⟩

/-- A record store of one record. -/
def stockedStore : ByteStore :=
  (RecordStore.run [.put (.minimal "live" 1 "app" "stack")] RecordStore.empty).2

/-- A folder with a record store. -/
def stocked : Folder :=
  (({} : Folder).set ["data"] .directory).set ["data", "records.redb"] (.store stockedStore)

/-- A trigger for an object that the store does not know. -/
def strayTrigger : List String :=
  ["trigger", "--execution", "e", "--workflow", "w", "--object", "site", "--deployment", "live"]

theorem runWords_failing_stray :
    ∃ report f', (runWords strayTrigger : StateM Folder Report) stocked = (report, f') ∧
      report.code = 1 ∧ f'.records? ["data", "records.redb"] = some stockedStore := by
  have hcode : ((runWords strayTrigger : StateM Folder Report) stocked).1.code = 1 := by
    decide +kernel
  have hfiled : stocked.Filed := by
    refine (Folder.filed_empty.set ["data"] ?_).set ["data", "records.redb"] ?_
    · intro content hdirectory
      cases hdirectory
    · intro content hstore
      rw [← Entry.store.inj hstore]
      exact ByteStore.filed_empty.run _
  have hrun : (runWords strayTrigger : StateM Folder Report) stocked =
      (((runWords strayTrigger : StateM Folder Report) stocked).1,
        ((runWords strayTrigger : StateM Folder Report) stocked).2) := rfl
  obtain ⟨-, hrecords⟩ := runWords_failing hfiled hrun (by rw [hcode]; decide)
  refine ⟨_, _, hrun, hcode, (hrecords _).trans ?_⟩
  decide +kernel

end Rollout
