import EditorFormat.Proofs.Session.Paths
import EditorFormat.Proofs.Worker.Answers

/-!
# Formatting in place and in the background

A format command ends alike wherever the formatter runs. In the background the job is split into a
message for the worker and a pending request, and the response is put together with the pending
request again. `background_agrees_with_inline` states that nothing is lost on the way: the formatter
is handed the same request, and the outcome, the editor, what the user is shown and the log are the
same, up to the stamps of log entries.
-/

namespace EditorFormat

/-- A log entry without its stamp. -/
def LogEntry.unstamped (entry : LogEntry) : FileId × String × LogKind × String :=
  (entry.fileId, entry.fileName, entry.kind, entry.message)

namespace Session

variable {σ τ : Type}

/-- Two sessions have the same settings, the same editor, the same log, and have shown the user the
same. -/
structure LooksLike (first : Session σ) (second : Session τ) : Prop where
  store : first.store = second.store
  editor : first.editor = second.editor
  log : first.log = second.log
  notifier : first.notifier = second.notifier

/-- Looking alike is transitive. -/
theorem LooksLike.trans {υ : Type} {first : Session σ} {second : Session τ} {third : Session υ}
    (h : LooksLike first second) (hthird : LooksLike second third) : LooksLike first third :=
  ⟨h.store.trans hthird.store, h.editor.trans hthird.editor, h.log.trans hthird.log,
    h.notifier.trans hthird.notifier⟩

/-- Two steps end alike, but for the stamps of log entries. -/
structure EndsLike (first : Disposition × Session σ) (second : Disposition × Session τ) :
    Prop where
  disposition : first.1 = second.1
  editor : first.2.editor = second.2.editor
  notifier : first.2.notifier = second.2.notifier
  log : first.2.log.entries.map LogEntry.unstamped = second.2.log.entries.map LogEntry.unstamped

variable {first : Session σ} {second : Session τ}

/-- The same failure at two times ends alike. -/
theorem LooksLike.fail (h : LooksLike first second) {early late : LogEntry}
    (hentry : early.unstamped = late.unstamped) :
    EndsLike (first.fail early) (second.fail late) where
  disposition := rfl
  editor := h.editor
  notifier := by
    simp only [Session.fail, settings, h.store, h.notifier]
  log := by
    simp only [Session.fail, ErrorLog.record, List.map_take, List.map_cons, hentry, h.log]

/-- The same outcome at two times ends alike. -/
theorem LooksLike.apply (h : LooksLike first second) (early late : Surroundings) (id : FileId)
    (fileName : String) (selectionRange : Option Span)
    (outcome : Except ErrorInfo FormatResult) :
    EndsLike (first.apply early id fileName selectionRange outcome)
      (second.apply late id fileName selectionRange outcome) := by
  cases outcome with
  | error error =>
    rw [apply_error, apply_error]
    exact h.fail rfl
  | ok result =>
    cases hfile : second.editor.file? id with
    | none =>
      have hclosed : first.editor.file? id = none := h.editor ▸ hfile
      simp only [Session.apply, hfile, hclosed]
      exact ⟨rfl, h.editor, h.notifier, congrArg _ (congrArg _ h.log)⟩
    | some file =>
      have hopen : first.editor.file? id = some file := h.editor ▸ hfile
      rw [apply_ok hopen, apply_ok hfile]
      refine ⟨rfl, ?_, ?_, ?_⟩
      · simp only [clearErrors, h.editor]
      · simp only [clearErrors, h.log, h.notifier]
      · simp only [clearErrors, h.log]

/-- The options of a file are those of the settings and the project. -/
theorem LooksLike.optionsFor_eq (h : LooksLike first second) (around : Surroundings)
    (file : OpenFile) : first.optionsFor around file = second.optionsFor around file := by
  simp only [optionsFor, settings, h.store, h.editor]

/-- The same format command dispatches the same job, or ends alike before it dispatches any. -/
theorem LooksLike.formatIn_cases (h : LooksLike first second) (around : Surroundings)
    (scope : Scope) (id : FileId) :
    (∃ job, first.editor.isOpen job.fileId = true ∧
      first.formatIn around scope id = first.dispatch around job ∧
      second.formatIn around scope id = second.dispatch around job) ∨
    (EndsLike (first.formatIn around scope id) (second.formatIn around scope id) ∧
      (first.formatIn around scope id).2.mode = first.mode ∧
      (second.formatIn around scope id).2.mode = second.mode ∧
      ∀ number, (second.formatIn around scope id).1 ≠ .queued number) := by
  cases hfile : first.editor.file? id with
  | none =>
    have hclosed : second.editor.file? id = none := h.editor ▸ hfile
    rw [formatIn_closed hfile, formatIn_closed hclosed]
    exact .inr ⟨⟨rfl, h.editor, h.notifier, congrArg _ (congrArg _ h.log)⟩, rfl, rfl, nofun⟩
  | some file =>
    have hopen : second.editor.file? id = some file := h.editor ▸ hfile
    rw [formatIn_open hfile, formatIn_open hopen]
    cases hoptions : first.optionsFor around file with
    | error error =>
      have hsame := (h.optionsFor_eq around file).symm.trans hoptions
      rw [dispatchWith_error hoptions, dispatchWith_error hsame]
      exact .inr ⟨h.fail rfl, rfl, rfl, nofun⟩
    | ok options =>
      have hsame := (h.optionsFor_eq around file).symm.trans hoptions
      obtain ⟨hid, -⟩ := scope.job_file id file options
      refine .inl ⟨scope.job id file options, ?_, ?_, ?_⟩
      · rw [hid, Editor.isOpen_iff]
        exact ⟨file, hfile⟩
      · exact dispatchWith_ok hoptions ..
      · exact dispatchWith_ok hsame ..

/-! ## The two ways -/

/-- The session with a formatter that runs in place. -/
def inPlace (session : Session (List FormatRequest)) (answer : FormatRequest → Outcome)
    (seen : List FormatRequest) : Session (List FormatRequest) :=
  { session with format := .recording answer, mode := .inline seen }

/-- The session with the formatter in a running worker, which may have other requests and responses
waiting. -/
def inBackground (session : Session (List FormatRequest)) (answer : FormatRequest → Outcome)
    (seen : List FormatRequest) (requests : List WorkerRequest)
    (responses : List WorkerResponse) : Session (List FormatRequest) :=
  { session with
    format := .recording answer
    mode := .background ⟨requests, responses, true, seen⟩ }

/-- The worker works without a trace in the editor, the log and what the user is shown. -/
theorem work_looksLike (session : Session σ) (count : Nat) :
    (session.work count).LooksLike session ∧ (session.work count).pending = session.pending := by
  unfold work
  cases session.mode with
  | inline formatter => exact ⟨⟨rfl, rfl, rfl, rfl⟩, rfl⟩
  | background worker => exact ⟨⟨rfl, rfl, rfl, rfl⟩, rfl⟩

/-- What a queued command and a command in place have in common: the request for the formatter, and
the end, whenever the response is handled. -/
structure Settles (answer : FormatRequest → Outcome) (seen : List FormatRequest)
    (requests : List WorkerRequest) (responses : List WorkerResponse) (number : RequestId)
    (inline sent : Disposition × Session (List FormatRequest)) (request : FormatRequest)
    (response : WorkerResponse) : Prop where
  handed_inline : inline.2.mode = .inline (seen ++ [request])
  /-- After all earlier requests the worker hands the same request to the formatter. -/
  handed_worker : (sent.2.work (requests.length + 1)).mode = .background
    ⟨[], responses ++ requests.map (Worker.answered answer) ++ [response], true,
      seen ++ requests.map WorkerRequest.request ++ [request]⟩
  /-- The response may be handled as soon as the worker has answered. -/
  ends_at_once : ∀ later : Surroundings,
    EndsLike inline ((sent.2.work (requests.length + 1)).handleResponse later response)
  /-- The response may be handled in any session that looks alike and still awaits it. -/
  ends_later : ∀ (between : Session (List FormatRequest)) (later : Surroundings),
    between.LooksLike sent.2 → between.pending.find? number = sent.2.pending.find? number →
      EndsLike inline (between.handleResponse later response)

/-- A job that is run in place and the response to the queued job end alike. -/
theorem dispatch_ends_like (session : Session (List FormatRequest))
    (answer : FormatRequest → Outcome) (seen : List FormatRequest)
    {between : Session (List FormatRequest)} (hlooks : between.LooksLike session)
    (early late : Surroundings) {job : Job} {number : RequestId} {issued : Nat}
    (hfound : between.pending.find? number = some (job.awaited issued))
    (hopen : session.editor.isOpen job.fileId = true) :
    EndsLike ((session.inPlace answer seen).dispatch early job)
      (between.handleResponse late (Worker.answered answer (job.message number))) := by
  have hdeliver : between.Deliverable (job.awaited issued)
      (Worker.answered answer (job.message number)) := ⟨rfl, hlooks.editor ▸ hopen⟩
  -- The response brings the outcome, the pending request brings the file, the name and the span.
  have houtcome : (Worker.answered answer (job.message number)).outcome =
      (answer job.request).mapError EngineError.info :=
    WorkerResponse.outcome_respond ..
  have hcall : (Formatter.recording answer seen job.request).1.outcome = answer job.request :=
    Reaction.outcome_ofOutcome _
  let called : Session (List FormatRequest) :=
    { session.inPlace answer seen with
      lastId := session.lastId + 1
      mode := .inline (seen ++ [job.request]) }
  have hsame : called.LooksLike (between.forget number) :=
    ⟨hlooks.store.symm, hlooks.editor.symm, hlooks.log.symm, hlooks.notifier.symm⟩
  have hinline : (session.inPlace answer seen).mode = .inline seen := rfl
  rw [dispatch_inline hinline, handleResponse_deliverable hfound hdeliver, houtcome]
  show EndsLike (called.apply early job.fileId job.fileName job.selectionRange
    ((Formatter.recording answer seen job.request).1.outcome.mapError EngineError.info)) _
  rw [hcall]
  exact hsame.apply early late job.fileId job.fileName job.selectionRange _

/-- A job that is run in place and one that is queued are settled alike. -/
theorem dispatch_settles (session : Session (List FormatRequest))
    (answer : FormatRequest → Outcome) (seen : List FormatRequest) (requests : List WorkerRequest)
    (responses : List WorkerResponse) (around : Surroundings) (job : Job)
    (hopen : session.editor.isOpen job.fileId = true) :
    Settles answer seen requests responses (session.lastId + 1)
      ((session.inPlace answer seen).dispatch around job)
      ((session.inBackground answer seen requests responses).dispatch around job) job.request
      (Worker.answered answer (job.message (session.lastId + 1))) := by
  have hinline : (session.inPlace answer seen).mode = .inline seen := rfl
  have hbackground : (session.inBackground answer seen requests responses).mode =
      .background ⟨requests, responses, true, seen⟩ := rfl
  obtain ⟨sent, hsent⟩ : ∃ sent,
      (session.inBackground answer seen requests responses).dispatch around job = sent := ⟨_, rfl⟩
  rw [hsent]
  rw [dispatch_running hbackground rfl] at hsent
  have hlooks : sent.2.LooksLike session := hsent ▸ ⟨rfl, rfl, rfl, rfl⟩
  have hfound : sent.2.pending.find? (session.lastId + 1) = some (job.awaited around.now) := by
    rw [← hsent]
    exact Entries.find?_put_self ..
  have hlater (between : Session (List FormatRequest)) (later : Surroundings)
      (hbetween : between.LooksLike sent.2)
      (hpending : between.pending.find? (session.lastId + 1) =
        sent.2.pending.find? (session.lastId + 1)) :
      EndsLike ((session.inPlace answer seen).dispatch around job) (between.handleResponse later
        (Worker.answered answer (job.message (session.lastId + 1)))) :=
    session.dispatch_ends_like answer seen (hbetween.trans hlooks) around later
      (hpending.trans hfound) hopen
  refine ⟨?_, ?_, fun later => ?_, hlater⟩
  · rw [dispatch_inline hinline]
    exact mode_apply ..
  · have hsteps := Worker.steps_recording answer
      (requests ++ [job.message (session.lastId + 1)]) responses true seen
    rw [List.length_append, List.length_singleton, List.map_append, List.map_append,
      ← List.append_assoc, ← List.append_assoc] at hsteps
    rw [← hsent]
    exact congrArg Mode.background hsteps
  · obtain ⟨hworked, hpending⟩ := sent.2.work_looksLike (requests.length + 1)
    exact hlater _ later hworked (by rw [hpending])

/-- A format command ends alike in place and in the background, in every state of the editor, the
settings, the log and the worker, for every formatter that does not crash. When the command queues a
job, the response that the worker gives to it may be handled at any later time at which it is still
awaited and nothing else has changed. When the command queues nothing, both end at once. -/
theorem background_agrees_with_inline (answer : FormatRequest → Outcome)
    (session : Session (List FormatRequest)) (seen : List FormatRequest)
    (requests : List WorkerRequest) (responses : List WorkerResponse) (around : Surroundings)
    (scope : Scope) (id : FileId) :
    let inline := (session.inPlace answer seen).formatIn around scope id
    let sent := (session.inBackground answer seen requests responses).formatIn around scope id
    (∃ number request response, sent.1 = .queued number ∧
      Settles answer seen requests responses number inline sent request response) ∨
    (∀ number, sent.1 ≠ .queued number) ∧ EndsLike inline sent ∧
      inline.2.mode = .inline seen ∧
      sent.2.mode = .background ⟨requests, responses, true, seen⟩ := by
  intro inline sent
  have hlooks : (session.inPlace answer seen).LooksLike
      (session.inBackground answer seen requests responses) := ⟨rfl, rfl, rfl, rfl⟩
  obtain ⟨job, hopen, hinline, hsent⟩ | ⟨hend, hinline, hsent, hqueued⟩ :=
    hlooks.formatIn_cases around scope id
  · refine .inl ⟨session.lastId + 1, job.request,
      Worker.answered answer (job.message (session.lastId + 1)), ?_, ?_⟩
    · simp only [sent, hsent]
      rw [dispatch_running rfl rfl]
      rfl
    · simp only [inline, sent, hinline, hsent]
      exact session.dispatch_settles answer seen requests responses around job hopen
  · exact .inr ⟨hqueued, hend, hinline, hsent⟩

end Session

end EditorFormat
