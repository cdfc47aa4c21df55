import EditorFormat.Proofs.Editor.Result
import EditorFormat.Session.Responses

/-!
# The paths of format commands and of responses

A format command either finds its file closed, or fails on the config of the file, or dispatches
the job of the file (`formatIn_open`). A dispatched job runs in place, waits in the queue of the
worker, or fails because the worker was stopped. A response is not awaited, is not deliverable, or
is put into the document. Each path has its equation here, and later modules use these equations
and not the definitions.
-/

namespace EditorFormat

/-- How much of a file a command formats. -/
inductive Scope where
  | document
  /-- The selected lines, or the whole document when nothing is selected. -/
  | selection
deriving DecidableEq, Repr

/-- The job of formatting an open file. -/
def Scope.job (scope : Scope) (id : FileId) (file : OpenFile) : FormatOptions → Job :=
  match scope with
  | .document => Session.documentJob id file
  | .selection =>
    match file.selection.expand file.text with
    | none => Session.documentJob id file
    | some (span, code) => Session.selectionJob id file span code

/-- A job is for the file that it was made of, and keeps its name. -/
theorem Scope.job_file (scope : Scope) (id : FileId) (file : OpenFile) (options : FormatOptions) :
    (scope.job id file options).fileId = id ∧ (scope.job id file options).fileName = file.name := by
  cases scope with
  | document => exact ⟨rfl, rfl⟩
  | selection =>
    unfold job
    cases file.selection.expand file.text <;> exact ⟨rfl, rfl⟩

namespace Job

/-- What the formatter is asked for a job. -/
def request (job : Job) : FormatRequest :=
  ⟨job.code, job.options, job.selectionRange.isSome⟩

/-- What the worker is sent for a job. -/
def message (job : Job) (id : RequestId) : WorkerRequest :=
  ⟨id, job.fileId, job.code, job.options, job.selectionRange.isSome, job.selectionRange⟩

/-- What is kept of a job until its response comes. -/
def awaited (job : Job) (now : Nat) : PendingRequest :=
  ⟨job.fileId, job.fileName, job.selectionRange, now⟩

end Job

namespace Session

variable {σ : Type}

/-- The format command of a scope. -/
def formatIn (session : Session σ) (around : Surroundings) :
    Scope → FileId → Disposition × Session σ
  | .document => session.formatDocument around
  | .selection => session.formatSelection around

/-- Nothing is done for a file that is not open. -/
theorem formatIn_closed {session : Session σ} {id : FileId} (h : session.editor.file? id = none)
    (around : Surroundings) (scope : Scope) :
    session.formatIn around scope id = (.dropped, session) := by
  cases scope with
  | document => simp only [formatIn, formatDocument, h]
  | selection => simp only [formatIn, formatSelection, h]

/-- The job of an open file is dispatched with the options of the file. -/
theorem formatIn_open {session : Session σ} {id : FileId} {file : OpenFile}
    (h : session.editor.file? id = some file) (around : Surroundings) (scope : Scope) :
    session.formatIn around scope id =
      session.dispatchWith around id file (scope.job id file) := by
  cases scope with
  | document => simp only [formatIn, formatDocument, h, Scope.job]
  | selection =>
    simp only [formatIn, formatSelection, formatDocument, h, Scope.job]
    cases file.selection.expand file.text <;> rfl

/-- A config that is not read is a failure. -/
theorem dispatchWith_error {session : Session σ} {around : Surroundings} {file : OpenFile}
    {error : Config.ConfigError} (h : session.optionsFor around file = .error error)
    (id : FileId) (job : FormatOptions → Job) :
    session.dispatchWith around id file job =
      session.fail ⟨id, file.name, .config, error.message, around.stamp⟩ := by
  simp only [dispatchWith, h]

/-- With its options a job is dispatched. -/
theorem dispatchWith_ok {session : Session σ} {around : Surroundings} {file : OpenFile}
    {options : FormatOptions} (h : session.optionsFor around file = .ok options)
    (id : FileId) (job : FormatOptions → Job) :
    session.dispatchWith around id file job = session.dispatch around (job options) := by
  simp only [dispatchWith, h]

/-- A job that runs in place is put into the document at once. -/
theorem dispatch_inline {session : Session σ} {formatter : σ} (h : session.mode = .inline formatter)
    (around : Surroundings) (job : Job) :
    session.dispatch around job =
      let call := session.format formatter job.request
      { session with lastId := session.lastId + 1, mode := .inline call.2 }.apply around job.fileId
        job.fileName job.selectionRange (call.1.outcome.mapError EngineError.info) := by
  simp only [dispatch, h]
  rfl

/-- A job for a running worker is queued under a number of its own. -/
theorem dispatch_running {session : Session σ} {worker : Worker σ}
    (h : session.mode = .background worker) (hrunning : worker.isRunning = true)
    (around : Surroundings) (job : Job) :
    session.dispatch around job =
      let id := session.lastId + 1
      (.queued id,
        { session with
          lastId := id
          mode := .background { worker with requests := worker.requests ++ [job.message id] }
          pending := session.pending.put id (job.awaited around.now) }) := by
  simp only [dispatch, h, Worker.send?, hrunning, if_true]
  rfl

/-- A job for a worker that was stopped is a failure, but uses up a number. -/
theorem dispatch_stopped {session : Session σ} {worker : Worker σ}
    (h : session.mode = .background worker) (hstopped : worker.isRunning = false)
    (around : Surroundings) (job : Job) :
    session.dispatch around job =
      { session with lastId := session.lastId + 1 }.fail
        ⟨job.fileId, job.fileName, .format, Worker.closedMessage, around.stamp⟩ := by
  simp [dispatch, h, Worker.send?, hstopped]

/-- An error is a failure, also when the file was closed. -/
theorem apply_error (session : Session σ) (around : Surroundings) (id : FileId)
    (fileName : String) (selectionRange : Option Span) (error : ErrorInfo) :
    session.apply around id fileName selectionRange (.error error) =
      session.fail ⟨id, fileName, .format, error.message, around.stamp⟩ :=
  rfl

/-- A result is put into an open file, and the errors of the file are forgotten. -/
theorem apply_ok {session : Session σ} {id : FileId} {file : OpenFile}
    (h : session.editor.file? id = some file) (around : Surroundings) (fileName : String)
    (selectionRange : Option Span) (result : FormatResult) :
    session.apply around id fileName selectionRange (.ok result) =
      (.applied, { session with
        editor := putResult session.editor id file selectionRange result }.clearErrors id) := by
  simp only [apply, h]

/-- Putting an outcome into a document never queues anything. -/
theorem apply_ne_queued (session : Session σ) (around : Surroundings) (id : FileId)
    (fileName : String) (range : Option Span) (outcome : Except ErrorInfo FormatResult)
    (number : RequestId) :
    (session.apply around id fileName range outcome).1 ≠ .queued number := by
  cases outcome with
  | error error => exact nofun
  | ok result => cases h : session.editor.file? id <;> simp [apply, h]

/-- Two sessions have the same settings, the same formatter in the same place, the same number for
the latest request, and wait equally long. -/
structure SameSetup (before after : Session σ) : Prop where
  store : after.store = before.store
  format : after.format = before.format
  mode : after.mode = before.mode
  lastId : after.lastId = before.lastId
  timeout : after.timeout = before.timeout

/-- The setup is the same when nothing of it is changed. -/
theorem SameSetup.refl (session : Session σ) : SameSetup session session :=
  ⟨rfl, rfl, rfl, rfl, rfl⟩

/-- The setup stays the same over two steps. -/
theorem SameSetup.trans {before between after : Session σ} (h : SameSetup before between)
    (hafter : SameSetup between after) : SameSetup before after :=
  ⟨hafter.store.trans h.store, hafter.format.trans h.format, hafter.mode.trans h.mode,
    hafter.lastId.trans h.lastId, hafter.timeout.trans h.timeout⟩

/-- Putting an outcome into a document keeps the setup. -/
theorem sameSetup_apply (session : Session σ) (around : Surroundings) (id : FileId)
    (fileName : String) (range : Option Span) (outcome : Except ErrorInfo FormatResult) :
    SameSetup session (session.apply around id fileName range outcome).2 := by
  cases outcome with
  | error error => exact ⟨rfl, rfl, rfl, rfl, rfl⟩
  | ok result =>
    simp only [apply]
    cases session.editor.file? id with
    | none => exact .refl session
    | some file => exact ⟨rfl, rfl, rfl, rfl, rfl⟩

@[simp] theorem lastId_apply (session : Session σ) (around : Surroundings) (id : FileId)
    (fileName : String) (range : Option Span) (outcome : Except ErrorInfo FormatResult) :
    (session.apply around id fileName range outcome).2.lastId = session.lastId :=
  (sameSetup_apply ..).lastId

@[simp] theorem mode_apply (session : Session σ) (around : Surroundings) (id : FileId)
    (fileName : String) (range : Option Span) (outcome : Except ErrorInfo FormatResult) :
    (session.apply around id fileName range outcome).2.mode = session.mode :=
  (sameSetup_apply ..).mode

/-- A response that no request waits for changes nothing. -/
theorem handleResponse_unawaited {session : Session σ} {response : WorkerResponse}
    (h : session.pending.find? response.id = none) (around : Surroundings) :
    session.handleResponse around response = (.dropped, session) := by
  simp only [handleResponse, h]

/-- A response can be delivered to a request when it is for the same file and the file is open. -/
def Deliverable (session : Session σ) (request : PendingRequest) (response : WorkerResponse) :
    Prop :=
  request.fileId = response.fileId ∧ session.editor.isOpen request.fileId = true

/-- A response that cannot be delivered only ends its request. -/
theorem handleResponse_undeliverable {session : Session σ} {response : WorkerResponse}
    {request : PendingRequest} (hawaited : session.pending.find? response.id = some request)
    (h : ¬ session.Deliverable request response) (around : Surroundings) :
    session.handleResponse around response = (.dropped, session.forget response.id) := by
  simp only [handleResponse, hawaited, settle]
  refine if_pos (Decidable.or_iff_not_imp_left.2 fun hfile => ?_)
  exact Bool.eq_false_iff.2 fun hopen => h ⟨Decidable.not_not.1 hfile, hopen⟩

/-- A response that can be delivered is put into the document. -/
theorem handleResponse_deliverable {session : Session σ} {response : WorkerResponse}
    {request : PendingRequest} (hawaited : session.pending.find? response.id = some request)
    (h : session.Deliverable request response) (around : Surroundings) :
    session.handleResponse around response =
      (session.forget response.id).apply around request.fileId request.fileName
        request.selectionRange response.outcome := by
  simp only [handleResponse, hawaited, settle]
  exact if_neg fun hfails => hfails.elim (· h.1) (by simp [forget, h.2])

/-- A response keeps the setup. -/
theorem sameSetup_handleResponse (session : Session σ) (around : Surroundings)
    (response : WorkerResponse) :
    SameSetup session (session.handleResponse around response).2 := by
  cases hawaited : session.pending.find? response.id with
  | none =>
    rw [handleResponse_unawaited hawaited]
    exact .refl session
  | some request =>
    have hforgotten : SameSetup session (session.forget response.id) := ⟨rfl, rfl, rfl, rfl, rfl⟩
    by_cases h : session.Deliverable request response
    · rw [handleResponse_deliverable hawaited h]
      exact hforgotten.trans (sameSetup_apply ..)
    · rw [handleResponse_undeliverable hawaited h]
      exact hforgotten

@[simp] theorem lastId_handleResponse (session : Session σ) (around : Surroundings)
    (response : WorkerResponse) :
    (session.handleResponse around response).2.lastId = session.lastId :=
  (sameSetup_handleResponse session around response).lastId

@[simp] theorem mode_handleResponse (session : Session σ) (around : Surroundings)
    (response : WorkerResponse) :
    (session.handleResponse around response).2.mode = session.mode :=
  (sameSetup_handleResponse session around response).mode

/-- Responses keep the setup. -/
theorem sameSetup_handleAll (session : Session σ) (around : Surroundings)
    (responses : List WorkerResponse) :
    SameSetup session (session.handleAll around responses) := by
  induction responses generalizing session with
  | nil => exact .refl session
  | cons response later ih => exact (sameSetup_handleResponse session around response).trans (ih _)

end Session

end EditorFormat
