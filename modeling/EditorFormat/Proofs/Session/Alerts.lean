import EditorFormat.Proofs.Files.Writing
import EditorFormat.Proofs.Session.Paths
import EditorFormat.Session.Commands
import Mathlib.Logic.Relation

/-!
# What the user is shown of failures

The log and the notifier of a session change in three ways only: failures are recorded and the user
is told, the errors of a file are cleared, or the log is shown or hidden (`Alerts.Step`). Whatever
is called in a session, with whatever formatter, comes down to such steps (`reaches_called`), so
what they keep is kept by every run of calls. The side button, which is seen exactly while there is
something in the log, is kept in this way (`side_button_follows_log`).
-/

namespace EditorFormat

open Files (FileSystem Action)

/-! ## Steps -/

/-- The failures that are kept, and what the user is shown. -/
structure Alerts where
  log : ErrorLog
  notifier : Notifier

namespace Alerts

/-- What happens to the log and to the notifier at once. -/
inductive Step : Alerts → Alerts → Prop where
  /-- Failures are recorded, and the user is told once about all of them. -/
  | fail (alerts : Alerts) (entries : List LogEntry) (hentries : entries ≠ []) (opensLog : Bool) :
      Step alerts ⟨entries.foldl ErrorLog.record alerts.log, alerts.notifier.surface opensLog⟩
  /-- The errors of a file are cleared, and the side button goes with the last one. -/
  | clear (alerts : Alerts) (file : FileId) :
      Step alerts ⟨alerts.log.clear file,
        if alerts.log.hasErrorsFor file && !(alerts.log.clear file).hasErrors then
          alerts.notifier.post (.sideButton false)
        else alerts.notifier⟩
  /-- The log is shown. -/
  | showLog (alerts : Alerts) : Step alerts ⟨alerts.log, alerts.notifier.post .showLog⟩
  /-- The log is hidden. -/
  | hideLog (alerts : Alerts) : Step alerts ⟨alerts.log, alerts.notifier.post .hideLog⟩

/-- Any number of steps. -/
abbrev Reaches : Alerts → Alerts → Prop :=
  Relation.ReflTransGen Step

end Alerts

namespace Session

variable {σ : Type}

/-- The log of a session, and what the user is shown in it. -/
def alerts (session : Session σ) : Alerts :=
  ⟨session.log, session.notifier⟩

/-! ## What a session does -/

/-- What shows nothing takes no step. -/
theorem reaches_of_eq {before after : Session σ} (h : after.alerts = before.alerts) :
    before.alerts.Reaches after.alerts :=
  h ▸ .refl

/-- A failure is one step. -/
theorem reaches_fail (session : Session σ) (entry : LogEntry) :
    session.alerts.Reaches (session.fail entry).2.alerts :=
  .single (.fail session.alerts [entry] (List.cons_ne_nil _ _) session.settings.opensLogOnError)

/-- Clearing the errors of a file is one step. -/
theorem reaches_clearErrors (session : Session σ) (file : FileId) :
    session.alerts.Reaches (session.clearErrors file).alerts :=
  .single (.clear session.alerts file)

/-- An outcome is recorded as a failure, or clears the errors of its file. -/
theorem reaches_apply (session : Session σ) (around : Surroundings) (id : FileId)
    (fileName : String) (range : Option Span) (outcome : Except ErrorInfo FormatResult) :
    session.alerts.Reaches (session.apply around id fileName range outcome).2.alerts := by
  cases outcome with
  | error error => exact reaches_fail session _
  | ok result =>
    cases hfile : session.editor.file? id with
    | none => exact reaches_of_eq (by rw [apply, hfile])
    | some file =>
      rw [apply_ok hfile]
      exact reaches_clearErrors
        { session with editor := putResult session.editor id file range result } id

/-- A format command does nothing, fails, or puts a result into the document. -/
theorem reaches_formatIn (session : Session σ) (around : Surroundings) (scope : Scope)
    (id : FileId) : session.alerts.Reaches (session.formatIn around scope id).2.alerts := by
  cases hfile : session.editor.file? id with
  | none => exact reaches_of_eq (by rw [formatIn_closed hfile])
  | some file =>
    rw [formatIn_open hfile]
    cases hoptions : session.optionsFor around file with
    | error error =>
      rw [dispatchWith_error hoptions]
      exact reaches_fail session _
    | ok options =>
      rw [dispatchWith_ok hoptions]
      cases hmode : session.mode with
      | inline formatter =>
        rw [dispatch_inline hmode]
        exact reaches_apply { session with lastId := session.lastId + 1, mode := .inline _ } ..
      | background worker =>
        cases hrunning : worker.isRunning with
        | true =>
          rw [dispatch_running hmode hrunning]
          exact reaches_of_eq rfl
        | false =>
          rw [dispatch_stopped hmode hrunning]
          exact reaches_fail { session with lastId := session.lastId + 1 } _

/-- A response is dropped or put into its document. -/
theorem reaches_handleResponse (session : Session σ) (around : Surroundings)
    (response : WorkerResponse) :
    session.alerts.Reaches (session.handleResponse around response).2.alerts := by
  cases hawaited : session.pending.find? response.id with
  | none => exact reaches_of_eq (by rw [handleResponse_unawaited hawaited])
  | some request =>
    by_cases h : session.Deliverable request response
    · rw [handleResponse_deliverable hawaited h]
      exact reaches_apply (session.forget response.id) ..
    · rw [handleResponse_undeliverable hawaited h]
      exact reaches_of_eq rfl

/-- Responses are handled one after the other. -/
theorem reaches_handleAll (session : Session σ) (around : Surroundings)
    (responses : List WorkerResponse) :
    session.alerts.Reaches (session.handleAll around responses).alerts := by
  induction responses generalizing session with
  | nil => exact .refl
  | cons response later ih => exact (reaches_handleResponse session around response).trans (ih _)

/-- Stale requests are failures that the user is told about at once, if there are any. -/
theorem reaches_expireStale (session : Session σ) (around : Surroundings) :
    session.alerts.Reaches (session.expireStale around).2.alerts := by
  let stale := session.pending.filter fun entry => session.isStale around.now entry.2
  let timedOut (entry : RequestId × PendingRequest) : LogEntry :=
    ⟨entry.2.fileId, entry.2.fileName, .timeout, timeoutMessage session.timeout, around.stamp⟩
  -- the user is told once, after all entries were recorded
  have halerts : (session.expireStale around).2.alerts =
      ⟨(stale.map timedOut).foldl ErrorLog.record session.log,
        if stale.isEmpty then session.notifier
        else session.notifier.surface session.settings.opensLogOnError⟩ := by
    rw [List.foldl_map]
    rfl
  rw [halerts]
  cases hstale : stale with
  | nil => exact .refl
  | cons entry others =>
    exact .single (.fail session.alerts ((entry :: others).map timedOut) (List.cons_ne_nil _ _) _)

/-- Taking responses shows nothing. -/
@[simp] theorem alerts_withResponses (session : Session σ) (responses : List WorkerResponse) :
    (session.withResponses responses).alerts = session.alerts := by
  rw [withResponses]
  split <;> rfl

/-- A worker that stops shows nothing. -/
@[simp] theorem alerts_stopWorker (session : Session σ) :
    session.stopWorker.alerts = session.alerts := by
  rw [stopWorker]
  split <;> rfl

/-- Polling handles responses, then gives up stale requests. -/
theorem reaches_poll (session : Session σ) (around : Surroundings) :
    session.alerts.Reaches (session.poll around).2.alerts := by
  have hhandled := reaches_handleAll (session.withResponses []) around session.responses
  rw [alerts_withResponses] at hhandled
  exact hhandled.trans (reaches_expireStale _ around)

/-- Waiting handles responses and gives up stale requests, in the order in which they come. -/
theorem reaches_waitIdle (session : Session σ) (around : Surroundings) (coming : List Happening) :
    session.alerts.Reaches (session.waitIdle around coming).2.alerts := by
  refine waitIdle_keeps (fun later => session.alerts.Reaches later.alerts) ?_ ?_ ?_ ?_ around coming
    .refl
  · exact fun later around response h => h.trans (reaches_handleResponse later around response)
  · exact fun later around h => h.trans (reaches_expireStale later around)
  · intro later responses h
    rwa [alerts_withResponses]
  · intro later h
    rwa [alerts_stopWorker]

/-! ## Calls -/

/-- What the editor calls, and what happens between two calls. -/
inductive Call (σ : Type) where
  | execute (around : Surroundings) (command : Command)
  | formatFile (around : Surroundings) (id : FileId)
  | poll (around : Surroundings)
  | waitIdle (around : Surroundings) (coming : List Happening)
  | fileRemoved (id : FileId)
  | openLogEntry (index : Nat)
  | settingsChange (files : FileSystem) (name : String) (value : Json.Value)
  /-- Files are edited, opened and closed, and the worker goes on or stops. -/
  | elsewhere (editor : Editor) (worker : Worker σ)

/-- The session after a setting is changed, or not when this fails. -/
def changeSetting (session : Session σ) (files : FileSystem) (name : String) (value : Json.Value) :
    Session σ :=
  match ((session.set name value).run.run files).1 with
  | .ok later => later
  | .error _ => session

/-- The session after a call. -/
def called (session : Session σ) : Call σ → Session σ
  | .execute around command => (session.execute around command).2
  | .formatFile around id => (session.formatDocument around id).2
  | .poll around => (session.poll around).2
  | .waitIdle around coming => (session.waitIdle around coming).2
  | .fileRemoved id => session.clearErrors id
  | .openLogEntry index => (session.openLogEntry index).2
  | .settingsChange files name value => session.changeSetting files name value
  | .elsewhere editor worker =>
    { session with
      editor
      mode := match session.mode with
        | .inline formatter => .inline formatter
        | .background _ => .background worker }

/-- The session after calls. -/
def calledAll (session : Session σ) (calls : List (Call σ)) : Session σ :=
  calls.foldl called session

/-- A command formats a file or shows the log. -/
theorem reaches_execute (session : Session σ) (around : Surroundings) (command : Command) :
    session.alerts.Reaches (session.execute around command).2.alerts := by
  cases command with
  | showLogs => exact .single (.showLog session.alerts)
  | formatSelection =>
    cases hactive : session.editor.active with
    | none => exact reaches_of_eq (by simp only [execute, hactive])
    | some id =>
      simp only [execute, hactive]
      exact reaches_formatIn session around .selection id

/-- A click on a log entry hides the log or does nothing. -/
theorem reaches_openLogEntry (session : Session σ) (index : Nat) :
    session.alerts.Reaches (session.openLogEntry index).2.alerts := by
  rw [openLogEntry]
  split
  · exact reaches_of_eq rfl
  · split
    · exact .single (.hideLog session.alerts)
    · exact reaches_of_eq rfl

/-- Changing a setting replaces the store, at most. -/
theorem exists_changeSetting_eq (session : Session σ) (files : FileSystem) (name : String)
    (value : Json.Value) :
    ∃ store, session.changeSetting files name value = { session with store } := by
  rw [changeSetting, set, Action.run_bind]
  generalize (session.store.set name value).run.run files = outcome
  obtain ⟨result, later⟩ := outcome
  cases result with
  | error error => exact ⟨session.store, rfl⟩
  | ok store => exact ⟨store, rfl⟩

/-- A changed setting shows nothing. -/
@[simp] theorem alerts_changeSetting (session : Session σ) (files : FileSystem) (name : String)
    (value : Json.Value) : (session.changeSetting files name value).alerts = session.alerts := by
  obtain ⟨store, hstore⟩ := session.exists_changeSetting_eq files name value
  rw [hstore]
  rfl

/-- A call comes down to steps. -/
theorem reaches_called (session : Session σ) (call : Call σ) :
    session.alerts.Reaches (session.called call).alerts := by
  cases call with
  | execute around command => exact reaches_execute session around command
  | formatFile around id => exact reaches_formatIn session around .document id
  | poll around => exact reaches_poll session around
  | waitIdle around coming => exact reaches_waitIdle session around coming
  | fileRemoved id => exact reaches_clearErrors session id
  | openLogEntry index => exact reaches_openLogEntry session index
  | settingsChange files name value => exact reaches_of_eq (alerts_changeSetting ..)
  | elsewhere editor worker => exact reaches_of_eq rfl

/-- Calls come down to steps. -/
theorem reaches_calledAll (session : Session σ) (calls : List (Call σ)) :
    session.alerts.Reaches (session.calledAll calls).alerts := by
  induction calls generalizing session with
  | nil => exact .refl
  | cons call later ih => exact (reaches_called session call).trans (ih _)

end Session

/-! ## The side button -/

/-- After something was recorded there are entries. -/
theorem ErrorLog.hasErrors_foldl_record {entries : List LogEntry} (h : entries ≠ [])
    (log : ErrorLog) : (entries.foldl record log).hasErrors = true := by
  rw [← List.dropLast_concat_getLast h, List.foldl_append]
  rfl

/-- Nothing is cleared of a file without entries. -/
theorem ErrorLog.clear_eq_self {log : ErrorLog} {file : FileId}
    (h : log.hasErrorsFor file = false) : log.clear file = log := by
  have hall : ∀ entry ∈ log.entries, decide (entry.fileId ≠ file) = true := by
    intro entry hentry
    simpa using List.any_eq_false.1 h entry hentry
  rw [clear, List.filter_eq_self.2 hall]

/-- What is left when a file is cleared was there before. -/
theorem ErrorLog.hasErrors_of_clear {log : ErrorLog} {file : FileId}
    (h : (log.clear file).hasErrors = true) : log.hasErrors = true := by
  rw [hasErrors, Bool.not_eq_true', List.isEmpty_eq_false_iff_exists_mem] at h ⊢
  obtain ⟨entry, hentry⟩ := h
  exact ⟨entry, (mem_clear.1 hentry).1⟩

/-- The user who is told of a failure sees the side button. -/
theorem Notifier.isSideButtonVisible_surface (notifier : Notifier) (opensLog : Bool) :
    (notifier.surface opensLog).isSideButtonVisible = true := by
  cases opensLog <;> rfl

namespace Alerts

/-- The side button is seen exactly while there are entries in the log. -/
def ButtonFollowsLog (alerts : Alerts) : Prop :=
  alerts.notifier.isSideButtonVisible = alerts.log.hasErrors

variable {before after : Alerts}

/-- A step keeps the side button with the log. -/
theorem Step.buttonFollowsLog (h : Step before after) (hbefore : before.ButtonFollowsLog) :
    after.ButtonFollowsLog := by
  cases h with
  | fail entries hentries opensLog =>
    exact (Notifier.isSideButtonVisible_surface ..).trans
      (ErrorLog.hasErrors_foldl_record hentries _).symm
  | clear file =>
    show Notifier.isSideButtonVisible (if _ then _ else _) = (before.log.clear file).hasErrors
    cases hfile : before.log.hasErrorsFor file with
    | false =>
      -- the button and the log are as they were
      rw [ErrorLog.clear_eq_self hfile]
      exact hbefore
    | true =>
      cases hleft : (before.log.clear file).hasErrors with
      | false => rfl
      | true =>
        -- other files keep the button
        exact hbefore.trans (ErrorLog.hasErrors_of_clear hleft)
  | showLog => exact hbefore
  | hideLog => exact hbefore

/-- Steps keep the side button with the log. -/
theorem Reaches.buttonFollowsLog (h : Reaches before after) (hbefore : before.ButtonFollowsLog) :
    after.ButtonFollowsLog := by
  induction h with
  | refl => exact hbefore
  | tail _ step ih => exact step.buttonFollowsLog ih

end Alerts

namespace Session

variable {σ : Type}

/-- From an empty log and a hidden side button on, the side button is seen exactly while there are
entries in the log. -/
theorem side_button_follows_log (session : Session σ) (hlog : session.log = .empty)
    (hhidden : session.notifier.isSideButtonVisible = false) (calls : List (Call σ)) :
    (session.calledAll calls).notifier.isSideButtonVisible = true ↔
      (session.calledAll calls).log.hasErrors = true := by
  have hstart : session.alerts.ButtonFollowsLog := by
    show session.notifier.isSideButtonVisible = session.log.hasErrors
    rw [hhidden, hlog]
    rfl
  have hend := (reaches_calledAll session calls).buttonFollowsLog hstart
  exact Bool.eq_iff_iff.1 hend

/-- A session with two open files and a worker that is waited for ten nanoseconds. -/
def impatient : Session Unit :=
  { start default true (fun _ _ => (.crashed, ())) (.background (.start ())) 10 with
    editor := (Editor.empty.openFile "a" ⟨"a.js", none, "x", default, default⟩).openFile "b"
      ⟨"b.js", none, "y", default, default⟩ }

/-- A request for one file is given up, which shows the side button. The other file goes first, and
the side button stays; then the file itself, and it is hidden. -/
theorem side_button_follows_log_timeout :
    let calls : List (Call Unit) :=
      [.formatFile default "a", .poll { (default : Surroundings) with now := 10 }, .fileRemoved "b"]
    let later : List (Call Unit) := calls ++ [.fileRemoved "a"]
    impatient.log = .empty ∧ impatient.notifier.isSideButtonVisible = false ∧
      (impatient.calledAll calls).log.hasErrors = true ∧
      (impatient.calledAll later).log.hasErrors = false := by
  intro calls later
  have hseen (calls : List (Call Unit)) := side_button_follows_log impatient rfl rfl calls
  refine ⟨rfl, rfl, (hseen calls).1 (by decide +kernel), ?_⟩
  rw [← Bool.not_eq_true, ← hseen later]
  decide +kernel

end Session

end EditorFormat
