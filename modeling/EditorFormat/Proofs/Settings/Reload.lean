import EditorFormat.Proofs.Files.Writing
import EditorFormat.Proofs.Settings.Storing
import EditorFormat.Settings.Store

/-!
# Settings across a reload

The settings of a store are written before they change (`run_replace`), so after a change that
succeeded the file holds the text of the current settings, whatever fails later (`Follows.change`).
A store that is opened from this text has the current settings with the default of every unset
option (`run_openAt_of_readText`). An option is left out of the text when it is unset, so unsetting
one that has a default does not survive (`reopened_after_changes`).
-/

namespace EditorFormat.Store

open Json (Value)
open Json.Reader (ReadsBack)
open Files (Path FileError FileSystem Action)

/-! ## Saving -/

section Saving

variable {path : Path} {settings : Settings} {files later : FileSystem}

/-- An access runs its action, and a failure is told with the path. -/
theorem run_accessing {α : Type} (path : Path) (action : Action FileError α) (files : FileSystem) :
    (accessing path action).run.run files =
      Prod.map (Except.mapError (StoreError.io path)) id (action.run.run files) :=
  rfl

/-- Make the folder of a path. -/
def makeFolder (path : Path) : Action StoreError Unit :=
  match path.parent? with
  | none => pure ()
  | some folder => accessing folder (Action.makeAll folder)

/-- Saving makes the folder, and then writes the text. -/
theorem save_eq (path : Path) (settings : Settings) :
    save path settings =
      makeFolder path >>= fun _ => accessing path (Action.writeText path settings.text) := by
  rw [save, makeFolder]
  cases path.parent? <;> rfl

/-- An access takes nothing away if its action does not. -/
theorem extending_accessing {α : Type} {action : Action FileError α} (h : action.Extending) :
    (accessing path action).Extending := by
  intro files
  have hfiles := h files
  rw [run_accessing]
  generalize action.run.run files = outcome at hfiles ⊢
  obtain ⟨result, later⟩ := outcome
  cases result <;> exact hfiles

/-- Making the folder takes nothing away. -/
theorem extending_makeFolder (path : Path) : (makeFolder path).Extending := by
  rw [makeFolder]
  cases path.parent? with
  | none => exact Action.extending_pure ()
  | some folder => exact extending_accessing (Action.extending_makeAll folder)

/-- The folder is made, and the text is written where there is a folder. -/
theorem run_save (path : Path) (settings : Settings) (files : FileSystem) :
    (save path settings).run.run files =
      match (makeFolder path).run.run files with
      | (.error error, between) => (.error error, between)
      | (.ok _, between) =>
        match between.writeText path settings.text with
        | .ok written => (.ok (), written)
        | .error error => (.error (.io path error), between) := by
  rw [save_eq, Action.run_bind]
  obtain ⟨made, between⟩ := (makeFolder path).run.run files
  cases made with
  | error error => rfl
  | ok _ =>
    simp only [run_accessing, Action.writeText, Action.run_update]
    cases between.writeText path settings.text <;> rfl

/-- After saving the text of the settings can be read. When saving fails, all that was there still
is. -/
theorem save_cases {result : Except StoreError Unit}
    (h : (save path settings).run.run files = (result, later)) :
    (result = .ok () ∧ later.readText path = .ok settings.text) ∨
      ((∃ error, result = .error error) ∧ files.Extends later) := by
  have hfolder := extending_makeFolder path files
  rw [run_save] at h
  generalize (makeFolder path).run.run files = outcome at h hfolder
  obtain ⟨made, between⟩ := outcome
  cases made with
  | error error =>
    obtain ⟨rfl, rfl⟩ := Prod.mk.inj h
    exact .inr ⟨⟨error, rfl⟩, hfolder⟩
  | ok _ =>
    cases hwritten : between.writeText path settings.text with
    | error error =>
      simp only [hwritten] at h
      obtain ⟨rfl, rfl⟩ := Prod.mk.inj h
      exact .inr ⟨⟨_, rfl⟩, hfolder⟩
    | ok written =>
      simp only [hwritten] at h
      obtain ⟨rfl, rfl⟩ := Prod.mk.inj h
      exact .inl ⟨rfl, FileSystem.readText_of_writeText hwritten⟩

end Saving

/-! ## Opening -/

section Opening

variable {path : Path} {files later : FileSystem}

/-- What is kept in a file is looked at and not touched. -/
theorem run_persisted? (path : Path) (files : FileSystem) :
    (persisted? path).run.run files =
      match files.readText path with
      | .ok text => (.ok (Value.read text).toOption, files)
      | .error .notFound => (.ok none, files)
      | .error error => (.error (.io path error), files) := by
  rw [persisted?, Action.run_bind]
  show (match files.readText path with
    | .ok text => pure (Value.read text).toOption
    | .error .notFound => pure none
    | .error error => throw (.io path error) : Action StoreError (Option Value)).run.run files = _
  cases files.readText path with
  | ok text => rfl
  | error error => cases error <;> rfl

/-- A store is opened with the settings in the file, or else with the defaults, which are saved. -/
theorem run_openAt (path : Path) (files : FileSystem) :
    (openAt path).run.run files =
      match (persisted? path).run.run files with
      | (.error error, later) => (.error error, later)
      | (.ok kept, later) =>
        match Settings.ofPersisted? kept with
        | some settings => (.ok (start (some path) settings), later)
        | none =>
          Prod.map (Except.map fun _ => start (some path) .initial) id
            ((save path .initial).run.run later) := by
  rw [openAt, Action.run_bind]
  obtain ⟨result, later⟩ := (persisted? path).run.run files
  cases result with
  | error error => rfl
  | ok kept =>
    show (match Settings.ofPersisted? kept with
      | some settings => pure (start (some path) settings)
      | none => save path .initial >>= fun _ => pure (start (some path) .initial) :
        Action StoreError Store).run.run later = _
    cases htaken : Settings.ofPersisted? kept with
    | some settings => simp only [htaken]; rfl
    | none => simp only [htaken]; exact Action.run_bind_pure ..

/-- The store that is opened from the text of storable settings has these settings with the default
of every unset option, and the files stay as they are. -/
theorem run_openAt_of_readText {settings : Settings} (h : settings.Storable ReadsBack)
    (hread : files.readText path = .ok settings.text) :
    (openAt path).run.run files = (.ok (start (some path) settings.withDefaults), files) := by
  have hkept : Settings.ofPersisted? (Value.read settings.text).toOption =
      some settings.withDefaults := by
    rw [h.read_text]
    exact h.ofPersisted?_object h.version
  rw [run_openAt, run_persisted?, hread]
  simp only [hkept]

/-- What an action left that was run for its effect. -/
theorem eq_of_map_eq {ε α : Type} {outcome : Except ε Unit × FileSystem} {value found : α}
    (h : Prod.map (Except.map fun _ => value) id outcome = (.ok found, later)) :
    found = value ∧ outcome = (.ok (), later) := by
  obtain ⟨result, last⟩ := outcome
  cases result with
  | error error => exact absurd (Prod.mk.inj h).1 nofun
  | ok _ =>
    obtain ⟨hfound, rfl⟩ := Prod.mk.inj h
    exact ⟨(Except.ok.inj hfound).symm, rfl⟩

/-- A store that is opened has the settings in the file, which stays as it is, or else the
defaults, which were saved. -/
theorem openAt_cases {opened : Store} (h : (openAt path).run.run files = (.ok opened, later)) :
    (∃ text settings, files.readText path = .ok text ∧
      Settings.ofPersisted? (Value.read text).toOption = some settings ∧
      opened = start (some path) settings ∧ later = files) ∨
    (opened = start (some path) .initial ∧
      (save path .initial).run.run files = (.ok (), later)) := by
  rw [run_openAt, run_persisted?] at h
  cases hread : files.readText path with
  | ok text =>
    simp only [hread] at h
    cases htaken : Settings.ofPersisted? (Value.read text).toOption with
    | some settings =>
      simp only [htaken] at h
      obtain ⟨hopened, rfl⟩ := Prod.mk.inj h
      exact .inl ⟨text, settings, rfl, htaken, (Except.ok.inj hopened).symm, rfl⟩
    | none =>
      simp only [htaken] at h
      exact .inr (eq_of_map_eq h)
  | error error =>
    simp only [hread] at h
    cases error with
    | notFound => exact .inr (eq_of_map_eq h)
    | _ => exact absurd (Prod.mk.inj h).1 nofun

/-- A store that was opened follows its path, and its settings are storable up to their floats. -/
theorem storable_of_openAt {opened : Store}
    (h : (openAt path).run.run files = (.ok opened, later)) :
    opened.path = some path ∧ opened.current.Storable fun _ => True := by
  rcases openAt_cases h with ⟨text, settings, -, htaken, rfl, -⟩ | ⟨rfl, -⟩
  · exact ⟨rfl, Settings.storable_of_text htaken⟩
  · exact ⟨rfl, Settings.storable_initial⟩

end Opening

/-! ## Changing -/

/-- A store in use: the files, and whether a change has succeeded. -/
structure Usage where
  store : Store
  files : FileSystem
  hasChanged : Bool

namespace Usage

/-- Change one setting by its name. A change that fails leaves the store as it is, and the files
as the failure leaves them. -/
def change (usage : Usage) (setting : String × Value) : Usage :=
  match (usage.store.set setting.1 setting.2).run.run usage.files with
  | (.ok store, files) => ⟨store, files, true⟩
  | (.error _, files) => { usage with files }

end Usage

/-- A store of a file writes settings before it publishes them. -/
theorem run_replace {store : Store} {path : Path} (h : store.path = some path)
    (settings : Settings) (files : FileSystem) :
    (store.replace settings).run.run files =
      Prod.map (Except.map fun _ => { store with feed := store.feed.publish settings }) id
        ((save path settings).run.run files) := by
  obtain ⟨_, feed⟩ := store
  obtain rfl := h
  exact Action.run_bind_pure ..

/-- A store of a file whose settings are storable. Once a change has succeeded, the file holds the
text of the current settings. -/
structure Follows (path : Path) (usage : Usage) : Prop where
  hasPath : usage.store.path = some path
  storable : usage.store.current.Storable ReadsBack
  written : usage.hasChanged → usage.files.readText path = .ok usage.store.current.text

section Changing

variable {path : Path} {usage : Usage}

/-- A change assigns a setting and saves the settings, or it leaves the store as it is and takes
nothing away from the files. -/
theorem change_cases (hpath : usage.store.path = some path) (setting : String × Value) :
    (∃ settings, usage.store.current.assign setting.1 setting.2 = .ok settings ∧
      (usage.change setting).store = { usage.store with feed := usage.store.feed.publish settings } ∧
      (usage.change setting).files.readText path = .ok settings.text) ∨
    ((usage.change setting).store = usage.store ∧
      (usage.change setting).hasChanged = usage.hasChanged ∧
      usage.files.Extends (usage.change setting).files) := by
  rw [Usage.change, set]
  cases hassign : usage.store.current.assign setting.1 setting.2 with
  | error error => exact .inr ⟨rfl, rfl, .refl _⟩
  | ok settings =>
    simp only [run_replace hpath]
    have hsave := save_cases (Prod.eta ((save path settings).run.run usage.files)).symm
    generalize (save path settings).run.run usage.files = outcome at hsave
    obtain ⟨result, later⟩ := outcome
    rcases hsave with ⟨rfl, hread⟩ | ⟨⟨error, rfl⟩, hfiles⟩
    · exact .inl ⟨settings, rfl, rfl, hread⟩
    · exact .inr ⟨rfl, rfl, hfiles⟩

/-- A change keeps the settings storable and the file up to date. -/
theorem Follows.change (h : Follows path usage) (setting : String × Value) :
    Follows path (usage.change setting) := by
  rcases change_cases h.hasPath setting with
    ⟨settings, hassign, hstore, hread⟩ | ⟨hstore, hchanged, hfiles⟩
  · refine ⟨?_, ?_, fun _ => ?_⟩
    · rw [hstore]; exact h.hasPath
    · rw [hstore]; exact h.storable.assign hassign
    · rw [hstore]; exact hread
  · -- A failed change may have made folders, which hides no file.
    refine ⟨?_, ?_, fun hsome => ?_⟩
    · rw [hstore]; exact h.hasPath
    · rw [hstore]; exact h.storable
    · rw [hstore]
      exact FileSystem.readText_of_extends hfiles (h.written (hchanged ▸ hsome))

/-- So do any changes. -/
theorem Follows.changes (h : Follows path usage) (changes : List (String × Value)) :
    Follows path (changes.foldl Usage.change usage) := by
  induction changes generalizing usage with
  | nil => exact h
  | cons setting rest ih => exact ih (h.change setting)

/-- Changes to other values than null leave every option set that has a default. -/
theorem complete_changes (h : Follows path usage) (hcomplete : usage.store.current.Complete)
    {changes : List (String × Value)} (hchanges : ∀ setting ∈ changes, setting.2 ≠ .null) :
    (changes.foldl Usage.change usage).store.current.Complete := by
  induction changes generalizing usage with
  | nil => exact hcomplete
  | cons setting rest ih =>
    obtain ⟨hsetting, hrest⟩ := List.forall_mem_cons.1 hchanges
    refine ih (h.change setting) ?_ hrest
    rcases change_cases h.hasPath setting with ⟨settings, hassign, hstore, -⟩ | ⟨hstore, -⟩
    · rw [hstore]
      exact hcomplete.assign h.storable.toTidy hsetting hassign
    · rw [hstore]
      exact hcomplete

end Changing

/-! ## Reopening -/

/-- A store is opened, used, and opened again after at least one change has succeeded. If the floats
among its unknown options are read back, then opening succeeds and touches no file, and finds the
current settings with the default of every unset option. These are the current settings exactly when
every option is set that has a default. They are so if all were set at first and no change unset
one. -/
theorem reopened_after_changes {path : Path} {files between : FileSystem} {opened : Store}
    (hopen : (openAt path).run.run files = (.ok opened, between))
    (hfloats : ∀ member ∈ opened.current.options.extra, ∀ x, member.2.HasFloat x → ReadsBack x)
    {changes : List (String × Value)} {usage : Usage}
    (husage : usage = changes.foldl Usage.change ⟨opened, between, false⟩)
    (hchanged : usage.hasChanged) :
    ∃ reopened, (openAt path).run.run usage.files = (.ok reopened, usage.files) ∧
      reopened.current = usage.store.current.withDefaults ∧
      (reopened.current = usage.store.current ↔ usage.store.current.Complete) ∧
      (opened.current.Complete → (∀ setting ∈ changes, setting.2 ≠ .null) →
        reopened.current = usage.store.current) := by
  obtain ⟨hpath, hstorable⟩ := storable_of_openAt hopen
  have hstart : Follows path ⟨opened, between, false⟩ :=
    ⟨hpath, hstorable.of_floats hfloats, nofun⟩
  subst husage
  have hfollows := hstart.changes changes
  refine ⟨_, run_openAt_of_readText hfollows.storable (hfollows.written hchanged), rfl,
    Settings.withDefaults_eq_iff, fun hcomplete hvalues => ?_⟩
  exact Settings.withDefaults_eq_iff.2 (complete_changes hstart hcomplete hvalues)

/-! ### In an empty folder -/

/-- The place of a settings file in the current folder. -/
def plainPath : Path :=
  "settings.json"

/-- The folder with a settings file in it, and nothing else. -/
def folderWith (settings : Settings) : FileSystem :=
  FileSystem.empty.put [plainPath] (.file settings.text.toUTF8)

/-- The settings file is saved in the current folder. -/
theorem run_save_plain {files : FileSystem} (hcurrent : files.current = [])
    (hroot : files.entry? [] = some .directory)
    (hfile : files.entry? [plainPath] ≠ some .directory) (settings : Settings) :
    (save plainPath settings).run.run files =
      (.ok (), files.put [plainPath] (.file settings.text.toUTF8)) := by
  have hfolder : plainPath.parent? = some "" := by decide +kernel
  have hnames : FileSystem.names plainPath = [plainPath] := by decide +kernel
  have hdirectory : FileSystem.needsDirectory plainPath = false := by decide +kernel
  have hroot' : ¬ plainPath.components.head? = some .root := by decide +kernel
  have hresolve : files.resolve plainPath = .ok [plainPath] := by
    rw [FileSystem.resolve, if_neg (by decide), if_neg hroot', hnames, hcurrent]
    simp only [FileSystem.follow, hroot]
    rfl
  have hwrite : files.writeText plainPath settings.text =
      .ok (files.put [plainPath] (.file settings.text.toUTF8)) :=
    FileSystem.write_of_resolve hresolve hfile hdirectory _
  have hmade : (makeFolder plainPath).run.run files = (.ok (), files) := by
    rw [makeFolder, hfolder]
    rfl
  rw [save_eq, Action.run_bind, hmade]
  simp only [run_accessing, Action.writeText, Action.run_update, hwrite]
  rfl

/-- A settings file is saved over another one. -/
theorem run_save_folderWith (settings next : Settings) :
    (save plainPath next).run.run (folderWith settings) = (.ok (), folderWith next) := by
  have hfile : FileSystem.entry? (folderWith settings) [plainPath] =
      some (.file settings.text.toUTF8) := rfl
  rw [run_save_plain rfl rfl (by rw [hfile]; exact nofun)]
  refine congrArg (Prod.mk _) (congrArg (FileSystem.mk []) (funext fun location => ?_))
  by_cases hlocation : location = [plainPath] <;> simp [folderWith, FileSystem.put, hlocation]

/-- In an empty folder the defaults are saved. -/
theorem run_openAt_empty :
    (openAt plainPath).run.run .empty = (.ok (start (some plainPath) .initial), folderWith .initial) := by
  have hread : FileSystem.empty.readText plainPath = .error .notFound := by
    rfl
  have hfile : FileSystem.empty.entry? [plainPath] = none := rfl
  have hsave : (save plainPath .initial).run.run .empty = (.ok (), folderWith .initial) :=
    run_save_plain rfl rfl (by rw [hfile]; exact nofun) _
  rw [run_openAt, run_persisted?, hread]
  simp only [Settings.ofPersisted?, hsave]
  rfl

/-- An option is given a value in the current folder. -/
theorem change_plain (store : Store) (hpath : store.path = some plainPath) (settings : Settings)
    (hasChanged : Bool) {next : Settings} {name : String} {value : Value}
    (hassign : store.current.assign name value = .ok next) :
    Usage.change ⟨store, folderWith settings, hasChanged⟩ (name, value) =
      ⟨{ store with feed := store.feed.publish next }, folderWith next, true⟩ := by
  simp only [Usage.change, set, hassign, run_replace hpath, run_save_folderWith]
  rfl

/-- The use of a store that was opened in an empty folder. -/
def fresh : Usage :=
  ⟨start (some plainPath) .initial, folderWith .initial, false⟩

/-- One option is given a value, or unset by null, in an empty folder. -/
theorem change_fresh (key : OptionKey) (found : Option key.Value) {setting : String × Value}
    (hsetting : setting = (key.name, (found.map key.type.encode).getD .null)) :
    (fresh.change setting).hasChanged = true ∧
      (fresh.change setting).store.current.options.get key = found := by
  obtain ⟨next, hassign, hget⟩ := Settings.assign_written Settings.tidy_initial key found
  subst hsetting
  rw [fresh, change_plain (start (some plainPath) .initial) rfl .initial false hassign]
  exact ⟨rfl, hget⟩

/-- A setting that is given another value is found again. -/
theorem reopened_after_semi :
    ∃ usage, usage = [("semi", Value.bool false)].foldl Usage.change fresh ∧
      (openAt plainPath).run.run .empty = (.ok fresh.store, fresh.files) ∧
      (∀ member ∈ fresh.store.current.options.extra, ∀ x, member.2.HasFloat x → ReadsBack x) ∧
      usage.hasChanged ∧
      ∃ reopened, (openAt plainPath).run.run usage.files = (.ok reopened, usage.files) ∧
        reopened.current = usage.store.current ∧
        reopened.current.options.get .semi = some false := by
  obtain ⟨usage, husage⟩ : ∃ usage, usage = fresh.change ("semi", .bool false) := ⟨_, rfl⟩
  have hsetting : ("semi", Value.bool false) = (OptionKey.semi.name, _) := rfl
  obtain ⟨hchanged, hget⟩ := change_fresh .semi (some false) hsetting
  rw [← husage] at hchanged hget
  have hfloats : ∀ member ∈ fresh.store.current.options.extra, ∀ x, member.2.HasFloat x →
      ReadsBack x := nofun
  have hchanges : usage = [("semi", Value.bool false)].foldl Usage.change fresh := by
    rw [List.foldl_cons, List.foldl_nil, husage]
  obtain ⟨reopened, hreopen, -, -, hequal⟩ :=
    reopened_after_changes run_openAt_empty hfloats hchanges hchanged
  have hvalue : Value.bool false ≠ .null := nofun
  have hcurrent := hequal Settings.complete_initial (List.forall_mem_singleton.2 hvalue)
  exact ⟨usage, hchanges, run_openAt_empty, hfloats, hchanged, reopened, hreopen, hcurrent,
    hcurrent ▸ hget⟩

/-- A setting that is unset has its default again when the store is opened anew. -/
theorem unset_setting_is_lost :
    ∃ usage, usage = [("semi", Value.null)].foldl Usage.change fresh ∧
      (openAt plainPath).run.run .empty = (.ok fresh.store, fresh.files) ∧
      usage.hasChanged ∧
      ∃ reopened, (openAt plainPath).run.run usage.files = (.ok reopened, usage.files) ∧
        reopened.current ≠ usage.store.current := by
  obtain ⟨usage, husage⟩ : ∃ usage, usage = fresh.change ("semi", .null) := ⟨_, rfl⟩
  have hsetting : ("semi", Value.null) = (OptionKey.semi.name, _) := rfl
  obtain ⟨hchanged, hget⟩ := change_fresh .semi none hsetting
  rw [← husage] at hchanged hget
  have hstart : Follows plainPath fresh := ⟨rfl, Settings.storable_initial, nofun⟩
  have hfollows : Follows plainPath usage := husage ▸ hstart.change _
  have hchanges : usage = [("semi", Value.null)].foldl Usage.change fresh := by
    rw [List.foldl_cons, List.foldl_nil, husage]
  refine ⟨usage, hchanges, run_openAt_empty, hchanged, _,
    run_openAt_of_readText hfollows.storable (hfollows.written hchanged), fun hequal => ?_⟩
  have hsemi := Settings.withDefaults_eq_iff.1 hequal .semi nofun
  rw [hget] at hsemi
  exact absurd hsemi nofun

end EditorFormat.Store
