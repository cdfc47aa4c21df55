import EditorFormat.Files.FileSystem

/-!
# Writing files

A path is followed through directories only, so it leads to the same place as long as these stay
(`follow_of_keeps`). A text that was written is therefore read back (`readText_of_writeText`), and
what can be read stays so while directories are made (`readText_of_extends`, `extending_makeAll`).
-/

namespace EditorFormat.Files

namespace FileSystem

variable {files later last : FileSystem} {path : Path}

/-! ## Files that stay -/

/-- The directories are still there, and the same one is current. -/
structure KeepsDirectories (files later : FileSystem) : Prop where
  current_eq : later.current = files.current
  entry?_eq : ∀ location,
    files.entry? location = some .directory → later.entry? location = some .directory

/-- What was there is still there, and the same directory is current. -/
structure Extends (files later : FileSystem) : Prop where
  current_eq : later.current = files.current
  entry?_eq : ∀ location entry,
    files.entry? location = some entry → later.entry? location = some entry

theorem Extends.refl (files : FileSystem) : files.Extends files :=
  ⟨rfl, fun _ _ => id⟩

theorem Extends.trans (h : files.Extends later) (hlast : later.Extends last) :
    files.Extends last :=
  ⟨hlast.current_eq.trans h.current_eq, fun location entry hentry =>
    hlast.entry?_eq location entry (h.entry?_eq location entry hentry)⟩

theorem Extends.keepsDirectories (h : files.Extends later) : files.KeepsDirectories later :=
  ⟨h.current_eq, fun location => h.entry?_eq location .directory⟩

/-- Nothing is lost when an entry is put where there was none. -/
theorem extends_put {location : Location} (h : files.entry? location = none) (entry : Entry) :
    files.Extends (files.put location entry) := by
  refine ⟨rfl, fun other found hfound => ?_⟩
  have hne : other ≠ location := by
    rintro rfl
    rw [h] at hfound
    exact absurd hfound nofun
  exact (if_neg hne).trans hfound

/-- No directory is lost when an entry is put where there was none. -/
theorem keepsDirectories_put {location : Location} (h : files.entry? location ≠ some .directory)
    (entry : Entry) : files.KeepsDirectories (files.put location entry) := by
  refine ⟨rfl, fun other hother => ?_⟩
  have hne : other ≠ location := fun heq => h (heq ▸ hother)
  exact (if_neg hne).trans hother

/-! ## Following a path -/

/-- Names lead to the same place as long as the directories stay. -/
theorem follow_of_keeps (h : files.KeepsDirectories later) {start target : Location}
    {names : List String} (hfollow : files.follow start names = .ok target) :
    later.follow start names = .ok target := by
  -- A name is looked up only where the ones before it led to a directory.
  induction names generalizing start with
  | nil => exact hfollow
  | cons name rest ih =>
    rw [follow] at hfollow ⊢
    cases hentry : files.entry? start with
    | none => rw [hentry] at hfollow; exact absurd hfollow nofun
    | some entry =>
      cases entry with
      | file content => rw [hentry] at hfollow; exact absurd hfollow nofun
      | directory =>
        simp only [hentry, h.entry?_eq start hentry] at hfollow ⊢
        by_cases hname : name = ".."
        · rw [if_pos hname] at hfollow ⊢
          exact ih hfollow
        · rw [if_neg hname] at hfollow ⊢
          exact ih hfollow

/-- A path leads to the same place as long as the directories stay. -/
theorem resolve_of_keeps (h : files.KeepsDirectories later) {target : Location}
    (hresolve : files.resolve path = .ok target) : later.resolve path = .ok target := by
  rw [resolve] at hresolve ⊢
  by_cases hempty : path = ""
  · rw [if_pos hempty] at hresolve
    exact absurd hresolve nofun
  · rw [if_neg hempty] at hresolve ⊢
    by_cases hroot : path.components.head? = some .root
    · rw [if_pos hroot] at hresolve ⊢
      exact follow_of_keeps h hresolve
    · rw [if_neg hroot] at hresolve ⊢
      rw [h.current_eq]
      exact follow_of_keeps h hresolve

/-- A path leads to the same entry as long as all that was there stays. -/
theorem find_of_extends (h : files.Extends later) {entry : Entry}
    (hfind : files.find path = .ok entry) : later.find path = .ok entry := by
  rw [find] at hfind ⊢
  cases hresolve : files.resolve path with
  | error error => rw [hresolve] at hfind; exact absurd hfind nofun
  | ok location =>
    rw [resolve_of_keeps h.keepsDirectories hresolve]
    rw [hresolve] at hfind
    cases hentry : files.entry? location with
    | none => simp only [hentry, bind, Except.bind] at hfind; exact absurd hfind nofun
    | some found =>
      simp only [hentry, bind, Except.bind] at hfind
      simp only [h.entry?_eq location found hentry, bind, Except.bind]
      exact hfind

/-- What can be read stays so as long as all that was there stays. -/
theorem readText_of_extends (h : files.Extends later) {text : String}
    (hread : files.readText path = .ok text) : later.readText path = .ok text := by
  rw [readText] at hread ⊢
  cases hfind : files.find path with
  | error error => rw [hfind] at hread; cases hread
  | ok entry =>
    rw [find_of_extends h hfind]
    rw [hfind] at hread
    exact hread

/-! ## Writing and reading -/

/-- The text of written bytes. -/
theorem fromUTF8?_toUTF8 (text : String) : String.fromUTF8? text.toUTF8 = some text :=
  dif_pos text.isValidUTF8

/-- What is written is put where the path leads, and no directory is lost. -/
theorem write_eq_ok {content : ByteArray} (h : files.write path content = .ok later) :
    ∃ location, files.resolve path = .ok location ∧
      files.entry? location ≠ some .directory ∧ needsDirectory path = false ∧
      later = files.put location (.file content) := by
  rw [write] at h
  cases hresolve : files.resolve path with
  | error error => rw [hresolve] at h; exact absurd h nofun
  | ok location =>
    rw [hresolve] at h
    refine ⟨location, rfl, ?_⟩
    cases hentry : files.entry? location with
    | none =>
      simp only [hentry, bind, Except.bind] at h
      cases hneeds : needsDirectory path with
      | true => rw [hneeds] at h; exact absurd h nofun
      | false => rw [hneeds] at h; exact ⟨nofun, rfl, (Except.ok.inj h).symm⟩
    | some entry =>
      simp only [hentry, bind, Except.bind] at h
      cases entry with
      | directory => exact absurd h nofun
      | file _ =>
        cases hneeds : needsDirectory path with
        | true => rw [hneeds] at h; exact absurd h nofun
        | false => rw [hneeds] at h; exact ⟨nofun, rfl, (Except.ok.inj h).symm⟩

/-- A directory is put where the path leads, and nothing was there. -/
theorem makeDirectory_eq_ok (h : files.makeDirectory path = .ok later) :
    ∃ location, files.resolve path = .ok location ∧ files.entry? location = none ∧
      later = files.put location .directory := by
  unfold makeDirectory at h
  cases hresolve : files.resolve path with
  | error error => rw [hresolve] at h; exact absurd h nofun
  | ok location =>
    rw [hresolve] at h
    refine ⟨location, rfl, ?_⟩
    cases hentry : files.entry? location with
    | some entry => simp only [hentry, bind, Except.bind] at h; exact absurd h nofun
    | none =>
      simp only [hentry, bind, Except.bind] at h
      exact ⟨rfl, (Except.ok.inj h).symm⟩

/-- A file is written where a path leads, unless a directory is there or wanted. -/
theorem write_of_resolve {location : Location} (hresolve : files.resolve path = .ok location)
    (hentry : files.entry? location ≠ some .directory) (hneeds : needsDirectory path = false)
    (content : ByteArray) :
    files.write path content = .ok (files.put location (.file content)) := by
  rw [write, hresolve]
  cases hfile : files.entry? location with
  | none => simp [hfile, hneeds, bind, Except.bind, pure, Except.pure]
  | some entry =>
    cases entry with
    | directory => exact absurd hfile hentry
    | file content => simp [hfile, hneeds, bind, Except.bind, pure, Except.pure]

/-- A text that was written is read back. -/
theorem readText_of_writeText {text : String} (h : files.writeText path text = .ok later) :
    later.readText path = .ok text := by
  obtain ⟨location, hresolve, hentry, hneeds, rfl⟩ := write_eq_ok h
  have hkeeps := resolve_of_keeps (keepsDirectories_put hentry (.file text.toUTF8)) hresolve
  have hfound : FileSystem.entry? (files.put location (.file text.toUTF8)) location =
      some (.file text.toUTF8) := if_pos rfl
  rw [readText, find, hkeeps]
  simp only [hfound, hneeds, bind, Except.bind, pure, Except.pure, Bool.false_eq_true, if_false,
    fromUTF8?_toUTF8]

/-- In a directory a file at the root has another name, but its path from the root is the same. -/
example :
    let files := (empty.put ["web"] .directory).put ["notes"] (.file "a".toUTF8)
    let inside : FileSystem := { files with current := ["web"] }
    files.isFile "notes" = true ∧ inside.isFile "notes" = false ∧
      inside.isFile "../notes" = true ∧ inside.isFile "/notes" = true := by
  decide +kernel

end FileSystem

/-! ## Actions that take nothing away -/

namespace Action

variable {ε α β : Type}

/-- An action leaves all that was there, whether it fails or not. -/
def Extending (action : Action ε α) : Prop :=
  ∀ files : FileSystem, files.Extends (action.run.run files).2

/-- One action is run after another. -/
theorem run_bind (action : Action ε α) (next : α → Action ε β) (files : FileSystem) :
    (action >>= next).run.run files =
      match action.run.run files with
      | (.ok value, later) => (next value).run.run later
      | (.error error, later) => (.error error, later) := by
  show (match action.run.run files with
    | (result, later) => (ExceptT.bindCont next result).run later) = _
  obtain ⟨result, later⟩ := action.run.run files
  cases result <;> rfl

/-- An action is run for its effect, with another value. -/
theorem run_bind_pure (action : Action ε α) (value : β) (files : FileSystem) :
    (action >>= fun _ => pure value).run.run files =
      Prod.map (Except.map fun _ => value) id (action.run.run files) := by
  rw [run_bind]
  obtain ⟨result, later⟩ := action.run.run files
  cases result <;> rfl

theorem extending_pure (value : α) : (pure value : Action ε α).Extending :=
  fun files => .refl files

theorem extending_throw (error : ε) : (throw error : Action ε α).Extending :=
  fun files => .refl files

theorem extending_get : (get : Action ε FileSystem).Extending :=
  fun files => .refl files

/-- What each of two actions leaves is left by one after the other. -/
theorem extending_bind {action : Action ε α} {next : α → Action ε β} (h : action.Extending)
    (hnext : ∀ value, (next value).Extending) : (action >>= next).Extending := by
  intro files
  have hfirst := h files
  rw [run_bind]
  generalize action.run.run files = outcome at hfirst ⊢
  obtain ⟨result, later⟩ := outcome
  cases result with
  | error error => exact hfirst
  | ok value => exact hfirst.trans (hnext value later)

/-- An action that fails is rescued with the files that it left. -/
theorem run_tryCatch (action : Action ε α) (rescue : ε → Action ε α) (files : FileSystem) :
    (tryCatch action rescue).run.run files =
      match action.run.run files with
      | (.ok value, later) => (.ok value, later)
      | (.error error, later) => (rescue error).run.run later := by
  show (match action.run.run files with
    | (result, later) => (match result with
      | .ok value => pure (.ok value)
      | .error error => rescue error : StateM FileSystem (Except ε α)).run later) = _
  obtain ⟨result, later⟩ := action.run.run files
  cases result <;> rfl

/-- What an action and its rescue leave is left by the action with the rescue. -/
theorem extending_tryCatch {action : Action ε α} {rescue : ε → Action ε α} (h : action.Extending)
    (hrescue : ∀ error, (rescue error).Extending) : (tryCatch action rescue).Extending := by
  intro files
  have hfirst := h files
  rw [run_tryCatch]
  generalize action.run.run files = outcome at hfirst ⊢
  obtain ⟨result, later⟩ := outcome
  cases result with
  | ok value => exact hfirst
  | error error => exact hfirst.trans (hrescue error later)

/-- A change in one step is made, or the files are left as they are. -/
theorem run_update (change : FileSystem → Except FileError FileSystem) (files : FileSystem) :
    (update change).run.run files =
      match change files with
      | .ok later => (.ok (), later)
      | .error error => (.error error, files) := by
  rw [update, run_bind]
  show ((liftM (change files) >>= set : Action FileError Unit)).run.run files = _
  cases change files <;> rfl

/-- A directory is put where there was nothing. -/
theorem extending_makeDirectory (path : Path) : (update (·.makeDirectory path)).Extending := by
  intro files
  rw [run_update]
  cases hmade : files.makeDirectory path with
  | error error => exact .refl files
  | ok later =>
    obtain ⟨location, -, hentry, rfl⟩ := FileSystem.makeDirectory_eq_ok hmade
    exact FileSystem.extends_put hentry .directory

/-- Making a directory takes nothing away. -/
theorem extending_makeOrKeep (path : Path) : (makeOrKeep path).Extending := by
  refine extending_tryCatch (extending_makeDirectory path) fun error => ?_
  refine extending_bind extending_get fun files => ?_
  split
  · exact extending_pure ()
  · exact extending_throw error

/-- Making a directory and those around it takes nothing away. -/
theorem extending_makeDirectories (fuel : Nat) (path : Path) :
    (makeDirectories fuel path).Extending := by
  induction fuel generalizing path with
  | zero => exact extending_throw _
  | succ fuel ih =>
    rw [makeDirectories]
    split
    · exact extending_pure ()
    · refine extending_bind extending_get fun files => ?_
      split
      · exact extending_throw _
      · exact extending_bind (ih _) fun _ => extending_makeOrKeep path
      · exact extending_makeOrKeep path

/-- Making a directory and those around it takes nothing away. -/
theorem extending_makeAll (path : Path) : (makeAll path).Extending :=
  extending_makeDirectories _ path

end Action

end EditorFormat.Files
