import EditorFormat.Proofs.Files.Writing

/-!
# Writing over a file

A directory that was made with those around it is there (`isDirectory_of_makeAll`), and making it
again changes nothing (`run_makeAll_of_isDirectory`). A file that could be written can be written
again with any other text, and only the last text counts (`writeText_again`).
-/

namespace EditorFormat.Files

variable {files later : FileSystem} {path : Path}

namespace FileSystem

/-- Of two entries put at a location the later one stays. -/
theorem put_put (files : FileSystem) (location : Location) (first second : Entry) :
    (files.put location first).put location second = files.put location second := by
  refine congrArg (FileSystem.mk files.current) (funext fun other => ?_)
  by_cases hother : other = location <;> simp [put, hother]

/-- A path leads to a directory when there is one where it leads. -/
theorem isDirectory_iff : files.isDirectory path ↔
    ∃ location, files.resolve path = .ok location ∧ files.entry? location = some .directory := by
  unfold isDirectory find
  cases files.resolve path with
  | error error => exact ⟨nofun, fun ⟨_, hlocation, _⟩ => absurd hlocation nofun⟩
  | ok location =>
    cases hentry : files.entry? location with
    | none => simp [hentry, bind, Except.bind, throw, throwThe, MonadExceptOf.throw]
    | some entry =>
      cases entry with
      | directory => simp [hentry, bind, Except.bind, pure, Except.pure]
      | file content =>
        cases needsDirectory path <;>
          simp [hentry, bind, Except.bind, pure, Except.pure, throw, throwThe,
            MonadExceptOf.throw]

/-- A path leads to a directory as long as the directories stay. -/
theorem isDirectory_of_keeps (h : files.KeepsDirectories later) (hpath : files.isDirectory path) :
    later.isDirectory path := by
  obtain ⟨location, hresolve, hentry⟩ := isDirectory_iff.1 hpath
  exact isDirectory_iff.2 ⟨location, resolve_of_keeps h hresolve, h.entry?_eq location hentry⟩

/-- No directory is made where one is. -/
theorem makeDirectory_of_isDirectory (h : files.isDirectory path) :
    files.makeDirectory path = .error .alreadyExists := by
  obtain ⟨location, hresolve, hentry⟩ := isDirectory_iff.1 h
  rw [makeDirectory, hresolve]
  simp [hentry, bind, Except.bind, throw, throwThe, MonadExceptOf.throw]

/-- A directory that was made is there. -/
theorem isDirectory_of_makeDirectory (h : files.makeDirectory path = .ok later) :
    later.isDirectory path := by
  obtain ⟨location, hresolve, hentry, rfl⟩ := makeDirectory_eq_ok h
  have hkeeps : files.KeepsDirectories (files.put location .directory) :=
    (extends_put hentry .directory).keepsDirectories
  exact isDirectory_iff.2 ⟨location, resolve_of_keeps hkeeps hresolve, if_pos rfl⟩

/-- A file that was written can be written with any other text, at first or later, and only the last
text counts. -/
theorem writeText_again {first : String} (h : files.writeText path first = .ok later)
    (second : String) : ∃ last, files.writeText path second = .ok last ∧
      later.writeText path second = .ok last := by
  obtain ⟨location, hresolve, hentry, hneeds, rfl⟩ := write_eq_ok h
  have hkeeps := keepsDirectories_put hentry (.file first.toUTF8)
  have hwritten : FileSystem.entry? (files.put location (.file first.toUTF8)) location =
      some (.file first.toUTF8) := if_pos rfl
  have hfound : FileSystem.entry? (files.put location (.file first.toUTF8)) location ≠
      some .directory := by
    rw [hwritten]
    exact nofun
  refine ⟨_, write_of_resolve hresolve hentry hneeds _, ?_⟩
  rw [writeText, write_of_resolve (resolve_of_keeps hkeeps hresolve) hfound hneeds, put_put]

/-- Writing a file takes no directory away. -/
theorem keepsDirectories_of_writeText {text : String} (h : files.writeText path text = .ok later) :
    files.KeepsDirectories later := by
  obtain ⟨location, -, hentry, -, rfl⟩ := write_eq_ok h
  exact keepsDirectories_put hentry _

end FileSystem

namespace Action

/-- A directory is made, or kept where one is. -/
theorem run_makeOrKeep (path : Path) (files : FileSystem) :
    (makeOrKeep path).run.run files =
      match files.makeDirectory path with
      | .ok later => (.ok (), later)
      | .error error =>
        if files.isDirectory path then (.ok (), files) else (.error error, files) := by
  rw [makeOrKeep, run_tryCatch, run_update]
  cases files.makeDirectory path with
  | ok later => rfl
  | error error =>
    show (get >>= fun files : FileSystem =>
      if files.isDirectory path then pure () else throw error :
        Action FileError Unit).run.run files = _
    rw [run_bind]
    show (if files.isDirectory path then pure () else throw error :
      Action FileError Unit).run.run files = _
    cases files.isDirectory path <;> rfl

/-- A directory that is made or kept is there. -/
theorem isDirectory_of_makeOrKeep
    (h : (makeOrKeep path).run.run files = (.ok (), later)) : later.isDirectory path := by
  rw [run_makeOrKeep] at h
  cases hmade : files.makeDirectory path with
  | ok made =>
    rw [hmade] at h
    obtain ⟨-, rfl⟩ := Prod.mk.inj h
    exact FileSystem.isDirectory_of_makeDirectory hmade
  | error error =>
    rw [hmade] at h
    by_cases hthere : files.isDirectory path
    · simp only [hthere] at h
      obtain ⟨-, rfl⟩ := Prod.mk.inj h
      exact hthere
    · simp only [hthere] at h
      exact absurd (Prod.mk.inj h).1 nofun

/-- A directory is made with those around it when they are missing, and otherwise alone. -/
theorem run_makeAll (hpath : path ≠ "") (files : FileSystem) :
    (makeAll path).run.run files =
      (match files.makeDirectory path, path.parent? with
        | .error .notFound, none => throw .notFound
        | .error .notFound, some parent =>
          makeDirectories path.length parent >>= fun _ => makeOrKeep path
        | _, _ => makeOrKeep path : Action FileError Unit).run.run files := by
  rw [makeAll, makeDirectories, if_neg hpath, run_bind]
  rfl

/-- A directory that is made with those around it is there. -/
theorem isDirectory_of_makeAll (hpath : path ≠ "")
    (h : (makeAll path).run.run files = (.ok (), later)) : later.isDirectory path := by
  rw [run_makeAll hpath] at h
  -- Whatever was made around it, the directory itself was made or kept in the end.
  split at h
  · exact absurd (Prod.mk.inj h).1 nofun
  · rw [run_bind] at h
    split at h
    · exact isDirectory_of_makeOrKeep h
    · exact absurd (Prod.mk.inj h).1 nofun
  · exact isDirectory_of_makeOrKeep h

/-- Nothing is made where a directory is. -/
theorem run_makeAll_of_isDirectory (h : files.isDirectory path) :
    (makeAll path).run.run files = (.ok (), files) := by
  by_cases hpath : path = ""
  · subst hpath
    rfl
  · rw [run_makeAll hpath, FileSystem.makeDirectory_of_isDirectory h]
    simp only [run_makeOrKeep, FileSystem.makeDirectory_of_isDirectory h, h, if_true]

end Action

end EditorFormat.Files
