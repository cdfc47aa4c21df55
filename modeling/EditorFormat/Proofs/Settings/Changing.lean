import EditorFormat.Proofs.Files.Overwriting
import EditorFormat.Proofs.Settings.Assigning
import EditorFormat.Proofs.Settings.Reload

/-!
# Changing one setting of a store

A store that changes a setting assigns it, saves the settings, and publishes them. Settings can be
saved again wherever they could be saved, and only the last ones count (`save_again`), so the laws
of assignments carry over to stores and files: `set_updates_one_setting`.
-/

namespace EditorFormat

open Json (Value)
open Files (Path FileError FileSystem Action)
open Settings (SameAt)

/-! ## Handles of a store -/

/-- The handles of a feed: those that subscribed to it at some time, whatever was published and
waited for since. -/
inductive Handle.Watches : Feed → Handle → Prop where
  | subscribe (feed : Feed) : Watches feed (.subscribe feed)
  | publish {feed : Feed} {handle : Handle} (settings : Settings) :
      Watches feed handle → Watches (feed.publish settings) handle
  | awaitChange {feed : Feed} {handle : Handle} :
      Watches feed handle → Watches feed (handle.awaitChange feed).2
  | close {feed : Feed} {handle : Handle} : Watches feed handle → Watches feed.close handle

/-- A handle has not seen more changes than there were. -/
theorem Handle.Watches.seen_le {feed : Feed} {handle : Handle} (h : Watches feed handle) :
    handle.seen ≤ feed.changes := by
  induction h with
  | subscribe feed => exact Nat.le_refl _
  | publish settings _ ih => exact Nat.le_succ_of_le ih
  | @awaitChange feed handle _ ih =>
    rw [Handle.awaitChange]
    split
    · exact Nat.le_refl _
    · exact ih
  | close _ ih => exact ih

/-- A change that is published is seen by every handle of an open feed. -/
theorem Handle.Watches.hasChanged_publish {feed : Feed} {handle : Handle} (h : Watches feed handle)
    (hopen : feed.isOpen) (settings : Settings) : handle.hasChanged (feed.publish settings) := by
  have hne : handle.seen ≠ feed.changes + 1 := Nat.ne_of_lt (Nat.lt_succ_of_le h.seen_le)
  simp [Handle.hasChanged, Feed.publish, hopen, hne]

namespace Store

/-! ## Saving again -/

section Saving

variable {path : Path} {files later : FileSystem}

/-- The folder of a path that was made is made again as long as no directory is taken away, which
changes nothing. -/
theorem makeFolder_again {between : FileSystem}
    (h : (makeFolder path).run.run files = (.ok (), between))
    (hkeeps : between.KeepsDirectories later) :
    (makeFolder path).run.run later = (.ok (), later) := by
  unfold makeFolder at h ⊢
  cases hfolder : path.parent? with
  | none => rfl
  | some folder =>
    simp only [hfolder] at h ⊢
    by_cases hempty : folder = ""
    · subst hempty
      rfl
    · rw [run_accessing] at h ⊢
      cases hmade : (Action.makeAll folder).run.run files with
      | mk made after =>
        rw [hmade] at h
        cases made with
        | error error => exact absurd (Prod.mk.inj h).1 nofun
        | ok _ =>
          obtain ⟨-, rfl⟩ := Prod.mk.inj h
          have hdirectory := Action.isDirectory_of_makeAll hempty hmade
          rw [Action.run_makeAll_of_isDirectory (FileSystem.isDirectory_of_keeps hkeeps hdirectory)]
          rfl

/-- Where settings were saved, any others can be saved, at first or later, and only the last ones
count. -/
theorem save_again {first : Settings} (h : (save path first).run.run files = (.ok (), later))
    (second : Settings) : ∃ last, (save path second).run.run files = (.ok (), last) ∧
      (save path second).run.run later = (.ok (), last) := by
  rw [run_save] at h
  cases hmade : (makeFolder path).run.run files with
  | mk made between =>
    rw [hmade] at h
    cases made with
    | error error => exact absurd (Prod.mk.inj h).1 nofun
    | ok _ =>
      cases hwritten : between.writeText path first.text with
      | error error => simp only [hwritten] at h; exact absurd (Prod.mk.inj h).1 nofun
      | ok written =>
        simp only [hwritten] at h
        obtain rfl : written = later := (Prod.mk.inj h).2
        obtain ⟨last, hlast, hagain⟩ := FileSystem.writeText_again hwritten second.text
        have hfolder :=
          makeFolder_again hmade (FileSystem.keepsDirectories_of_writeText hwritten)
        refine ⟨last, ?_, ?_⟩
        · rw [run_save, hmade]
          simp only [hlast]
        · rw [run_save, hfolder]
          simp only [hagain]

end Saving

/-! ## Failures of file access -/

section Failing

variable {path : Path} {files later : FileSystem} {error : StoreError}

/-- An access fails with the error of its files. -/
theorem io_of_accessing_error {α : Type} {action : Action FileError α}
    (h : (accessing path action).run.run files = (.error error, later)) :
    ∃ place cause, error = .io place cause := by
  rw [run_accessing] at h
  cases hrun : action.run.run files with
  | mk result after =>
    rw [hrun] at h
    cases result with
    | ok _ => exact absurd (Prod.mk.inj h).1 nofun
    | error cause => exact ⟨path, cause, (Except.error.inj (Prod.mk.inj h).1).symm⟩

/-- Saving fails with the error of an access. -/
theorem io_of_save_error {settings : Settings}
    (h : (save path settings).run.run files = (.error error, later)) :
    ∃ place cause, error = .io place cause := by
  rw [run_save] at h
  cases hmade : (makeFolder path).run.run files with
  | mk made between =>
    rw [hmade] at h
    cases made with
    | ok _ =>
      cases hwritten : between.writeText path settings.text with
      | ok written => simp only [hwritten] at h; exact absurd (Prod.mk.inj h).1 nofun
      | error cause =>
        simp only [hwritten] at h
        exact ⟨path, cause, (Except.error.inj (Prod.mk.inj h).1).symm⟩
    | error cause =>
      obtain rfl : cause = error := Except.error.inj (Prod.mk.inj h).1
      unfold makeFolder at hmade
      cases hfolder : path.parent? with
      | none => rw [hfolder] at hmade; exact absurd (Prod.mk.inj hmade).1 nofun
      | some folder => rw [hfolder] at hmade; exact io_of_accessing_error hmade

end Failing

/-! ## Keeping -/

/-- Keep settings in the file of a store, if it has one. -/
def keep : Option Path → Settings → Action StoreError Unit
  | none, _ => pure ()
  | some path, settings => save path settings

/-- A store of a file saves settings to keep them. -/
theorem keep_some (path : Path) (settings : Settings) :
    keep (some path) settings = save path settings :=
  rfl

section Keeping

variable {path : Option Path} {files later : FileSystem}

/-- A store keeps settings before it publishes them. -/
theorem run_replace_keep (store : Store) (settings : Settings) (files : FileSystem) :
    (store.replace settings).run.run files =
      Prod.map (Except.map fun _ => { store with feed := store.feed.publish settings }) id
        ((keep store.path settings).run.run files) := by
  obtain ⟨path, feed⟩ := store
  cases path with
  | none => rfl
  | some path =>
    rw [keep_some]
    exact run_replace rfl settings files

/-- Where settings were kept, any others can be kept, at first or later, and only the last ones
count. -/
theorem keep_again {first : Settings} (h : (keep path first).run.run files = (.ok (), later))
    (second : Settings) : ∃ last, (keep path second).run.run files = (.ok (), last) ∧
      (keep path second).run.run later = (.ok (), last) := by
  cases path with
  | none =>
    obtain rfl : files = later := (Prod.mk.inj h).2
    exact ⟨files, rfl, rfl⟩
  | some path =>
    rw [keep_some] at h ⊢
    exact save_again h second

/-- Keeping fails with the error of an access. -/
theorem io_of_keep_error {settings : Settings} {error : StoreError}
    (h : (keep path settings).run.run files = (.error error, later)) :
    ∃ place cause, error = .io place cause := by
  cases path with
  | none => exact absurd (Prod.mk.inj h).1 nofun
  | some path =>
    rw [keep_some] at h
    exact io_of_save_error h

end Keeping

/-! ## One change -/

namespace Usage

/-- A store in use after other settings were kept and published. -/
def after (usage : Usage) (settings : Settings) (files : FileSystem) : Usage :=
  ⟨{ usage.store with feed := usage.store.feed.publish settings }, files, true⟩

/-- Whether a change of one setting succeeds. -/
def Succeeds (usage : Usage) (setting : String × Value) : Prop :=
  ((usage.store.set setting.1 setting.2).run.run usage.files).1.isOk

section Changing

variable (usage : Usage) {setting : String × Value}

/-- The outcome of a change. A setting is assigned and the settings are kept, or the value is none
of the setting's, or the files are to blame. -/
theorem set_cases (setting : String × Value) :
    (∃ settings later, usage.store.current.assign setting.1 setting.2 = .ok settings ∧
      (keep usage.store.path settings).run.run usage.files = (.ok (), later) ∧
      (usage.store.set setting.1 setting.2).run.run usage.files =
        (.ok (usage.after settings later).store, later)) ∨
    (∃ cause, (usage.store.set setting.1 setting.2).run.run usage.files =
      (.error (.setting cause), usage.files)) ∨
    ∃ place cause later, (usage.store.set setting.1 setting.2).run.run usage.files =
      (.error (.io place cause), later) := by
  rw [set]
  cases hassign : usage.store.current.assign setting.1 setting.2 with
  | error cause => exact .inr (.inl ⟨cause, rfl⟩)
  | ok settings =>
    simp only [run_replace_keep]
    cases hkeep : (keep usage.store.path settings).run.run usage.files with
    | mk result later =>
      cases result with
      | ok _ => exact .inl ⟨settings, later, rfl, hkeep, rfl⟩
      | error error =>
        obtain ⟨place, cause, rfl⟩ := io_of_keep_error hkeep
        exact .inr (.inr ⟨place, cause, later, rfl⟩)

/-- A change succeeds when the setting can be assigned and the settings can be kept. -/
theorem change_of_assign (setting : String × Value) {settings : Settings} {later : FileSystem}
    (hassign : usage.store.current.assign setting.1 setting.2 = .ok settings)
    (hkeep : (keep usage.store.path settings).run.run usage.files = (.ok (), later)) :
    usage.Succeeds setting ∧ usage.change setting = usage.after settings later := by
  rw [Succeeds, change, set, hassign]
  simp only [run_replace_keep, hkeep]
  exact ⟨rfl, rfl⟩

/-- Only then does a change succeed. -/
theorem assign_of_succeeds (h : usage.Succeeds setting) : ∃ settings later,
    usage.store.current.assign setting.1 setting.2 = .ok settings ∧
      (keep usage.store.path settings).run.run usage.files = (.ok (), later) ∧
      usage.change setting = usage.after settings later := by
  rcases usage.set_cases setting with
    ⟨settings, later, hassign, hkeep, -⟩ | ⟨cause, hrun⟩ | ⟨place, cause, later, hrun⟩
  · exact ⟨settings, later, hassign, hkeep, (usage.change_of_assign setting hassign hkeep).2⟩
  · rw [Succeeds, hrun] at h; exact absurd h nofun
  · rw [Succeeds, hrun] at h; exact absurd h nofun

/-- A change that fails leaves the store, and a value that is none of the setting's leaves the
files. -/
theorem change_of_error (setting : String × Value) {error : StoreError}
    (h : ((usage.store.set setting.1 setting.2).run.run usage.files).1 = .error error) :
    (usage.change setting).store = usage.store ∧
      ∀ cause, error = .setting cause → (usage.change setting).files = usage.files := by
  unfold change
  rcases usage.set_cases setting with
    ⟨settings, later, -, -, hrun⟩ | ⟨cause, hrun⟩ | ⟨place, cause, later, hrun⟩
  · rw [hrun] at h; exact absurd h nofun
  · rw [hrun]; exact ⟨rfl, fun _ _ => rfl⟩
  · rw [hrun] at h ⊢
    obtain rfl : StoreError.io place cause = error := Except.error.inj h
    exact ⟨rfl, nofun⟩

end Changing

/-! ## Several changes -/

section Several

variable {usage : Usage} {first second : String × Value}

/-- After a change that succeeded, the same changes succeed as before it. -/
theorem succeeds_change_iff (htidy : usage.store.current.Tidy) (h : usage.Succeeds first) :
    (usage.change first).Succeeds second ↔ usage.Succeeds second := by
  obtain ⟨settings, later, hassign, hkeep, hchange⟩ := usage.assign_of_succeeds h
  have hok : (settings.assign second.1 second.2).isOk ↔
      (usage.store.current.assign second.1 second.2).isOk := by
    rw [Settings.isOk_assign_iff htidy, Settings.isOk_assign_iff (Settings.tidy_of_assign hassign)]
  rw [hchange]
  constructor
  · intro hsecond
    obtain ⟨both, -, hboth, -⟩ := (usage.after settings later).assign_of_succeeds hsecond
    have hbothOk : (settings.assign second.1 second.2).isOk := by
      rw [show settings.assign second.1 second.2 = .ok both from hboth]; rfl
    obtain ⟨other, hother⟩ := Settings.eq_ok_of_isOk (hok.1 hbothOk)
    obtain ⟨last, hlast, -⟩ := keep_again hkeep other
    exact (usage.change_of_assign second hother hlast).1
  · intro hsecond
    obtain ⟨other, -, hother, -⟩ := usage.assign_of_succeeds hsecond
    have hotherOk : (usage.store.current.assign second.1 second.2).isOk := by rw [hother]; rfl
    obtain ⟨both, hboth⟩ := Settings.eq_ok_of_isOk (hok.2 hotherOk)
    obtain ⟨last, -, hlast⟩ := keep_again hkeep both
    exact ((usage.after settings later).change_of_assign second hboth hlast).1

/-- A change overrides an earlier one of the same setting. -/
theorem change_change (htidy : usage.store.current.Tidy) (hsame : second.1 = first.1)
    (hfirst : usage.Succeeds first) (hsecond : usage.Succeeds second) :
    ((usage.change first).change second).store.current = (usage.change second).store.current ∧
      ((usage.change first).change second).files = (usage.change second).files := by
  obtain ⟨settings, later, hassign, hkeep, hchange⟩ := usage.assign_of_succeeds hfirst
  obtain ⟨other, between, hother, hbetween, hchange'⟩ := usage.assign_of_succeeds hsecond
  obtain ⟨kept, hkept, hagain⟩ := keep_again hkeep other
  obtain rfl : between = kept := (Prod.mk.inj (hbetween.symm.trans hkept)).2
  have hlast : settings.assign second.1 second.2 = .ok other := by
    rw [hsame] at hother ⊢
    exact (Settings.assign_assign htidy hassign second.2).trans hother
  rw [hchange, hchange', ((usage.after settings later).change_of_assign second hlast hagain).2]
  exact ⟨rfl, rfl⟩

/-- Changes of different settings can be made in either order. -/
theorem change_comm (htidy : usage.store.current.Tidy) (hne : first.1 ≠ second.1)
    (hfirst : usage.Succeeds first) (hsecond : usage.Succeeds second) :
    (usage.change first).change second = (usage.change second).change first := by
  have hafter := (succeeds_change_iff htidy hfirst).2 hsecond
  obtain ⟨settings, later, hassign, hkeep, hchange⟩ := usage.assign_of_succeeds hfirst
  rw [hchange] at hafter ⊢
  obtain ⟨both, last, hboth, hlast, hchanged⟩ :=
    (usage.after settings later).assign_of_succeeds hafter
  obtain ⟨other, hother, hswapped⟩ := Settings.assign_comm htidy hne hassign hboth
  obtain ⟨between, hbetween, -⟩ := keep_again hkeep other
  -- What is kept in the end does not depend on what was kept between.
  obtain ⟨kept, hkept, hagain⟩ := keep_again hkeep both
  obtain ⟨kept', hkept', hagain'⟩ := keep_again hbetween both
  obtain rfl : kept = kept' := (Prod.mk.inj (hkept.symm.trans hkept')).2
  obtain rfl : last = kept := (Prod.mk.inj (hlast.symm.trans hagain)).2
  rw [hchanged, (usage.change_of_assign second hother hbetween).2,
    ((usage.after other between).change_of_assign first hswapped hagain').2]
  rfl

end Several

end Usage

/-! ## The whole effect of a change -/

/-- What stays when a change fails: the settings, and whether a handle sees a change. A value that
is none of the setting's does not reach the files. -/
structure Unchanged (before after : Usage) (error : StoreError) : Prop where
  current : after.store.current = before.store.current
  hasChanged : ∀ handle : Handle,
    handle.hasChanged after.store.feed = handle.hasChanged before.store.feed
  files : ∀ cause, error = .setting cause → after.files = before.files

/-- What a change of one setting does: nothing else changes, the page shows the normal form of the
value, the file holds the new settings, and every handle sees the change. -/
structure Updates (before after : Usage) (name : String) (value : Value) : Prop where
  others : ∀ key, key ≠ name → SameAt key after.store.current before.store.current
  unknown : after.store.current.options.extra = before.store.current.options.extra
  version : after.store.current.version = before.store.current.version
  tidy : after.store.current.Tidy
  shown : ∀ row ∈ settingsPage, row.key.name = name →
    row.value after.store.current = row.normal value
  written : ∀ path, before.store.path = some path →
    after.files.readText path = .ok after.store.current.text
  hasChanged : ∀ handle : Handle, handle.Watches before.store.feed →
    handle.hasChanged after.store.feed

/-- How a change that succeeded goes together with a later one. The later one succeeds if it would
have without the change. When it is one of the same setting, only the later one counts; when it is
one of another setting, the two can be made in either order. -/
structure Composes (usage : Usage) (first second : String × Value) : Prop where
  succeeds : (usage.change first).Succeeds second ↔ usage.Succeeds second
  overridden : usage.Succeeds second → second.1 = first.1 →
    ((usage.change first).change second).store.current = (usage.change second).store.current ∧
      ((usage.change first).change second).files = (usage.change second).files
  commutes : usage.Succeeds second → first.1 ≠ second.1 →
    (usage.change second).Succeeds first ∧
      (usage.change first).change second = (usage.change second).change first

namespace Usage

variable {usage : Usage} {name : String} {value : Value}

/-- A change that succeeds updates one setting. -/
theorem updates_of_succeeds (hopen : usage.store.feed.isOpen) (htidy : usage.store.current.Tidy)
    (h : usage.Succeeds (name, value)) :
    Updates usage (usage.change (name, value)) name value := by
  obtain ⟨settings, later, hassign, hkeep, hchange⟩ := usage.assign_of_succeeds h
  rw [hchange]
  refine ⟨fun key hkey => Settings.sameAt_assign htidy hassign hkey,
    Settings.extra_assign htidy hassign, Settings.version_assign htidy hassign,
    Settings.tidy_of_assign hassign, fun row hrow hname => ?_, fun path hpath => ?_,
    fun handle hwatches => hwatches.hasChanged_publish hopen settings⟩
  · exact Settings.value_assign hassign (hname ▸ Settings.settingRow?_of_mem hrow)
  · rw [hpath, keep_some] at hkeep
    rcases save_cases hkeep with ⟨-, hread⟩ | ⟨⟨error, herror⟩, -⟩
    · exact hread
    · exact absurd herror nofun

/-- Handing back the value that is shown replaces the settings by themselves. -/
theorem set_value (htidy : usage.store.current.Tidy) {row : SettingRow}
    (hrow : row ∈ settingsPage) :
    usage.store.set row.key.name (row.value usage.store.current) =
      usage.store.replace usage.store.current := by
  rw [set, Settings.assign_value htidy (Settings.settingRow?_of_mem hrow)]

end Usage

/-- Changing one setting by its name fails and leaves the settings, or it succeeds and changes this
setting alone, in the settings, in the file and for every handle. Handing back the value that is
shown changes nothing, a later change of the same setting overrides it, and changes of different
settings can be made in either order. -/
theorem set_updates_one_setting {usage : Usage} (hopen : usage.store.feed.isOpen)
    (htidy : usage.store.current.Tidy) (name : String) (value : Value) :
    (∀ error, ((usage.store.set name value).run.run usage.files).1 = .error error →
      Unchanged usage (usage.change (name, value)) error) ∧
    (usage.Succeeds (name, value) → Updates usage (usage.change (name, value)) name value) ∧
    (∀ row ∈ settingsPage, row.key.name = name →
      usage.store.set name (row.value usage.store.current) =
          usage.store.replace usage.store.current ∧
        (usage.change (name, row.value usage.store.current)).store.current =
          usage.store.current) ∧
    ∀ second, usage.Succeeds (name, value) → Composes usage (name, value) second := by
  refine ⟨fun error herror => ?_, Usage.updates_of_succeeds hopen htidy, ?_,
    fun second hfirst => ?_⟩
  · obtain ⟨hstore, hfiles⟩ := usage.change_of_error (name, value) herror
    exact ⟨congrArg Store.current hstore, fun handle => by rw [hstore], hfiles⟩
  · rintro row hrow rfl
    have hset := Usage.set_value htidy hrow
    refine ⟨hset, ?_⟩
    rw [Usage.change, hset, run_replace_keep]
    cases hkeep : (keep usage.store.path usage.store.current).run.run usage.files with
    | mk result later => cases result <;> rfl
  · exact ⟨Usage.succeeds_change_iff htidy hfirst,
      fun hsecond hsame => Usage.change_change htidy hsame hfirst hsecond,
      fun hsecond hne => ⟨(Usage.succeeds_change_iff htidy hsecond).2 hfirst,
        Usage.change_comm htidy hne hfirst hsecond⟩⟩

/-- A width that is typed into the prompt is taken up as a number, next to the other settings. -/
theorem set_updates_one_setting_fresh :
    fresh.store.feed.isOpen ∧ fresh.store.current.Tidy ∧
      fresh.Succeeds ("printWidth", .string " 100 ") ∧
      (fresh.change ("printWidth", .string " 100 ")).store.current.options.get .semi = some true ∧
      ∀ row ∈ settingsPage, row.key.name = "printWidth" →
        row.value (fresh.change ("printWidth", .string " 100 ")).store.current = .int 100 := by
  have htidy : fresh.store.current.Tidy := Settings.tidy_initial
  obtain ⟨row, hrow, hanswer, hnormal⟩ : ∃ row, settingRow? "printWidth" = some row ∧
      row.answer (.string " 100 ") = .ok (.int 100) ∧
      row.normal (.string " 100 ") = .int 100 := ⟨_, rfl, rfl, rfl⟩
  obtain ⟨settings, hassign⟩ := Settings.eq_ok_of_isOk
    ((Settings.isOk_assign_iff htidy).2 ⟨row, .int 100, hrow, hanswer,
      Settings.accepts_iff.1 rfl⟩)
  have hkeep : (keep fresh.store.path settings).run.run fresh.files =
      (.ok (), folderWith settings) := by
    rw [show fresh.store.path = some plainPath from rfl, keep_some]
    exact run_save_folderWith .initial settings
  have hsucceeds := (fresh.change_of_assign ("printWidth", .string " 100 ") hassign hkeep).1
  obtain ⟨-, hupdates, -⟩ := set_updates_one_setting rfl htidy "printWidth" (.string " 100 ")
  have hall := hupdates hsucceeds
  have hsemi := (hall.others "semi" (by decide)).option .semi rfl
  refine ⟨rfl, htidy, hsucceeds, hsemi, fun other hother hname => ?_⟩
  rw [hall.shown other hother hname]
  have hfound := Settings.settingRow?_of_mem hother
  rw [hname, hrow] at hfound
  rw [← Option.some.inj hfound, hnormal]

end Store

end EditorFormat
