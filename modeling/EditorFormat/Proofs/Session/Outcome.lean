import EditorFormat.Proofs.Session.Paths

/-!
# What the outcome of a step tells

The outcome of a format command or of a response tells exactly what happened to the editor, the log
and the user. `Tells` states this for each outcome. Every path through a session ends in `fail`, in
`clearErrors` after a result, or leaves all three alone, so `outcome_tells_effect` follows from one
lemma for each of these ends.
-/

namespace EditorFormat

namespace Session

variable {σ : Type}

/-- A result was put into a file, and the log entries of the file are gone. -/
structure ResultPut (id : FileId) (before after : Session σ) : Prop where
  editor : Editor.TouchesOnly id before.editor after.editor
  log : after.log.entries = before.log.entries.filter fun entry => entry.fileId ≠ id

/-- A failure was recorded for a file in a log of ten entries, and the user was told once. -/
structure FailureRecorded (id : FileId) (before after : Session σ) : Prop where
  editor : after.editor = before.editor
  log : ∃ entry : LogEntry, entry.fileId = id ∧ (entry.kind = .config ∨ entry.kind = .format) ∧
    after.log.entries = (entry :: before.log.entries).take 10
  notifier : after.notifier = (before.notifier.post (.sideButton true)).post
    (if before.settings.opensLogOnError then .showLog
      else .toast (if before.notifier.hasSideButtons then Notifier.sideButtonHint
        else Notifier.paletteHint))

/-- Neither the editor nor the log nor what the user is shown has changed. -/
structure Untouched (before after : Session σ) : Prop where
  editor : after.editor = before.editor
  log : after.log = before.log
  notifier : after.notifier = before.notifier

/-- What the outcome of a step for a file tells about the session before and after. -/
def Tells (id : FileId) (before : Session σ) (step : Disposition × Session σ) : Prop :=
  match step.1 with
  | .applied => ResultPut id before step.2
  | .failed => FailureRecorded id before step.2
  | .queued _ | .dropped => Untouched before step.2

/-- Numbers, pending requests and the worker are not seen in what an outcome tells. -/
theorem Tells.congr (before other : Session σ)
    (hstore : other.store = before.store) (heditor : other.editor = before.editor)
    (hlog : other.log = before.log) (hnotifier : other.notifier = before.notifier)
    {id : FileId} {step : Disposition × Session σ} (h : Tells id other step) :
    Tells id before step := by
  obtain ⟨disposition, after⟩ := step
  cases disposition with
  | applied => exact ⟨heditor ▸ h.editor, hlog ▸ h.log⟩
  | failed =>
    obtain ⟨hfailed, hentry, htold⟩ := h
    rw [settings, hstore, hnotifier] at htold
    exact ⟨heditor ▸ hfailed, hlog ▸ hentry, htold⟩
  | queued number => exact ⟨heditor ▸ h.editor, hlog ▸ h.log, hnotifier ▸ h.notifier⟩
  | dropped => exact ⟨heditor ▸ h.editor, hlog ▸ h.log, hnotifier ▸ h.notifier⟩

/-- A step that put nothing into a file left the editor alone. -/
theorem Tells.editor_eq {before : Session σ} {id : FileId} {step : Disposition × Session σ}
    (h : Tells id before step) (hstep : step.1 ≠ .applied) : step.2.editor = before.editor := by
  obtain ⟨disposition, after⟩ := step
  cases disposition with
  | applied => exact absurd rfl hstep
  | failed => exact h.editor
  | queued number => exact h.editor
  | dropped => exact h.editor

/-- The records of requests that were given up. -/
def timeouts (session : Session σ) : List LogEntry :=
  session.log.entries.filter fun entry => entry.kind = .timeout

/-- A step with an outcome records no request as given up. -/
theorem Tells.timeouts_sublist {before : Session σ} {id : FileId}
    {step : Disposition × Session σ} (h : Tells id before step) :
    step.2.timeouts.Sublist before.timeouts := by
  obtain ⟨disposition, after⟩ := step
  cases disposition with
  | applied =>
    rw [timeouts, timeouts, h.log]
    exact List.filter_sublist.filter _
  | failed =>
    obtain ⟨entry, -, hkind, hlog⟩ := h.log
    -- The new entry is of another kind, and the entries that fall out of the log are only missing.
    have hother : ¬ entry.kind = .timeout := by
      rcases hkind with hkind | hkind <;> simp [hkind]
    have htaken := (List.take_sublist 10 (entry :: before.log.entries)).filter
      fun entry => decide (entry.kind = .timeout)
    rw [List.filter_cons_of_neg (by simpa using hother)] at htaken
    rw [timeouts, timeouts, hlog]
    exact htaken
  | queued number =>
    have hsame : after.timeouts = before.timeouts := by rw [timeouts, timeouts, h.log]
    exact hsame ▸ List.Sublist.refl _
  | dropped =>
    have hsame : after.timeouts = before.timeouts := by rw [timeouts, timeouts, h.log]
    exact hsame ▸ List.Sublist.refl _

/-- A failure is recorded, and the user is told. -/
theorem fail_tells (session : Session σ) {entry : LogEntry} {id : FileId}
    (hfile : entry.fileId = id) (hkind : entry.kind = .config ∨ entry.kind = .format) :
    Tells id session (session.fail entry) :=
  FailureRecorded.mk rfl ⟨entry, hfile, hkind, rfl⟩ rfl

/-- The outcome of a call for an open file is put into the file or recorded. -/
theorem apply_tells (session : Session σ) {id : FileId} {file : OpenFile}
    (h : session.editor.file? id = some file) (around : Surroundings) (fileName : String)
    (selectionRange : Option Span) (outcome : Except ErrorInfo FormatResult) :
    Tells id session (session.apply around id fileName selectionRange outcome) ∧
      (session.apply around id fileName selectionRange outcome).1 ≠ .dropped := by
  cases outcome with
  | error error =>
    rw [apply_error]
    exact ⟨fail_tells session rfl (.inr rfl), nofun⟩
  | ok result =>
    rw [apply_ok h]
    exact ⟨ResultPut.mk (putResult_touches_only h selectionRange result) rfl, nofun⟩

/-- A dispatched job for an open file is queued, put into the file or recorded as a failure. -/
theorem dispatch_tells {session : Session σ} (job : Job) {file : OpenFile}
    (h : session.editor.file? job.fileId = some file) (around : Surroundings) :
    Tells job.fileId session (session.dispatch around job) ∧
      (session.dispatch around job).1 ≠ .dropped := by
  cases hmode : session.mode with
  | inline formatter =>
    rw [dispatch_inline hmode]
    let call := session.format formatter job.request
    let called : Session σ :=
      { session with lastId := session.lastId + 1, mode := .inline call.2 }
    obtain ⟨htells, hdone⟩ := apply_tells called h around job.fileName job.selectionRange
      (call.1.outcome.mapError EngineError.info)
    exact ⟨htells.congr session called rfl rfl rfl rfl, hdone⟩
  | background worker =>
    cases hrunning : worker.isRunning with
    | true =>
      rw [dispatch_running hmode hrunning]
      exact ⟨Untouched.mk rfl rfl rfl, nofun⟩
    | false =>
      rw [dispatch_stopped hmode hrunning]
      let numbered : Session σ := { session with lastId := session.lastId + 1 }
      refine ⟨Tells.congr session numbered rfl rfl rfl rfl ?_, nofun⟩
      exact fail_tells numbered rfl (.inr rfl)

/-- A format command tells what it did, and drops only a file that is not open. -/
theorem formatIn_tells (session : Session σ) (around : Surroundings) (scope : Scope)
    (id : FileId) :
    Tells id session (session.formatIn around scope id) ∧
      ((session.formatIn around scope id).1 = .dropped ↔ session.editor.isOpen id = false) := by
  cases hfile : session.editor.file? id with
  | none =>
    rw [formatIn_closed hfile]
    exact ⟨Untouched.mk rfl rfl rfl,
      ⟨fun _ => Editor.isOpen_eq_false_iff.2 hfile, fun _ => rfl⟩⟩
  | some file =>
    have hopen : session.editor.isOpen id ≠ false := by
      simp [Editor.isOpen_iff.2 ⟨file, hfile⟩]
    rw [formatIn_open hfile]
    cases hoptions : session.optionsFor around file with
    | error error =>
      rw [dispatchWith_error hoptions]
      exact ⟨fail_tells session rfl (.inl rfl), ⟨nofun, fun hclosed => absurd hclosed hopen⟩⟩
    | ok options =>
      rw [dispatchWith_ok hoptions]
      obtain ⟨hid, -⟩ := scope.job_file id file options
      obtain ⟨htells, hdone⟩ := dispatch_tells (scope.job id file options)
        (by rw [hid, hfile]) around
      rw [hid] at htells
      exact ⟨htells, ⟨fun hdropped => absurd hdropped hdone,
        fun hclosed => absurd hclosed hopen⟩⟩

/-- A response tells what it did, and is dropped only when it cannot be delivered to a request that
waits for it. -/
theorem handleResponse_tells (session : Session σ) (around : Surroundings)
    (response : WorkerResponse) :
    Tells response.fileId session (session.handleResponse around response) ∧
      ((session.handleResponse around response).1 ≠ .dropped ↔ ∃ request,
        session.pending.find? response.id = some request ∧
          session.Deliverable request response) := by
  cases hawaited : session.pending.find? response.id with
  | none =>
    rw [handleResponse_unawaited hawaited]
    exact ⟨Untouched.mk rfl rfl rfl, ⟨fun hkept => absurd rfl hkept, nofun⟩⟩
  | some request =>
    by_cases hdeliverable : session.Deliverable request response
    · rw [handleResponse_deliverable hawaited hdeliverable]
      obtain ⟨file, hfile⟩ := Editor.isOpen_iff.1 hdeliverable.2
      obtain ⟨htells, hdone⟩ := apply_tells (session.forget response.id) hfile around
        request.fileName request.selectionRange response.outcome
      rw [hdeliverable.1] at htells ⊢
      rw [hdeliverable.1] at hdone
      exact ⟨htells.congr session (session.forget response.id) rfl rfl rfl rfl,
        ⟨fun _ => ⟨request, rfl, hdeliverable⟩, fun _ => hdone⟩⟩
    · rw [handleResponse_undeliverable hawaited hdeliverable]
      refine ⟨Untouched.mk rfl rfl rfl, ⟨fun hkept => absurd rfl hkept, ?_⟩⟩
      rintro ⟨_, hsame, hother⟩
      exact absurd (Option.some.inj hsame ▸ hother) hdeliverable

/-- In every session the outcome of a format command or of a response tells exactly what was done
to the editor, the log and what the user is shown. A command is dropped only when its file is not
open. A response is dropped only when no request for the same, open file waits for it. -/
theorem outcome_tells_effect (session : Session σ) (around : Surroundings) :
    (∀ scope id,
      Tells id session (session.formatIn around scope id) ∧
        ((session.formatIn around scope id).1 = .dropped ↔ session.editor.isOpen id = false)) ∧
    ∀ response,
      Tells response.fileId session (session.handleResponse around response) ∧
        ((session.handleResponse around response).1 ≠ .dropped ↔ ∃ request,
          session.pending.find? response.id = some request ∧
            session.Deliverable request response) :=
  ⟨session.formatIn_tells around, session.handleResponse_tells around⟩

end Session

end EditorFormat
