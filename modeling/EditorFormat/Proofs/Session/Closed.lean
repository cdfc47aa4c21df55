import EditorFormat.Proofs.Session.Alerts
import EditorFormat.Proofs.Session.Run
import Mathlib.Data.List.Basic

/-!
# What a closed file leaves in the log

The errors of a file are cleared when it is closed, but a request for it may be under way then. When
that request is given up, or fails after the file was opened again, this is recorded
(`given_up_request_is_recorded`). Nothing else comes into the log: without a new format of the file
a session can only use up the requests that are pending for it (`Fades`), whatever is called. So
the log holds one entry at most for each of them, and none if there were none
(`closed_file_leaves_requests_under_way`).
-/

namespace EditorFormat

/-! ## Entries of one file -/

/-- The entry records that a request came to nothing, in one of the given ways. -/
structure LogEntry.Records (entry : LogEntry) (kinds : List LogKind) (request : PendingRequest) :
    Prop where
  fileId : entry.fileId = request.fileId
  fileName : entry.fileName = request.fileName
  kind : entry.kind ∈ kinds

namespace ErrorLog

/-- Clearing a file adds no entry of another one. -/
theorem entriesOf_clear_sublist (log : ErrorLog) (cleared file : FileId) :
    ((log.clear cleared).entriesOf file).Sublist (log.entriesOf file) :=
  List.filter_sublist.filter _

/-- A new entry is the only one that is added. -/
theorem entriesOf_record_sublist (log : ErrorLog) (entry : LogEntry) (file : FileId) :
    ((log.record entry).entriesOf file).Sublist
      ([entry].filter (fun entry => entry.fileId = file) ++ log.entriesOf file) := by
  have htake := (List.take_sublist capacity (entry :: log.entries)).filter
    fun entry => decide (entry.fileId = file)
  rwa [← List.singleton_append, List.filter_append] at htake

/-- New entries are the only ones that are added, the latest one first. -/
theorem entriesOf_foldl_record_sublist (log : ErrorLog) (entries : List LogEntry) (file : FileId) :
    ((entries.foldl record log).entriesOf file).Sublist
      ((entries.filter fun entry => entry.fileId = file).reverse ++ log.entriesOf file) := by
  induction entries generalizing log with
  | nil => exact .refl _
  | cons entry later ih =>
    refine (ih (log.record entry)).trans ?_
    rw [← List.singleton_append, List.filter_append, List.reverse_append, List.append_assoc]
    refine (List.Sublist.refl _).append ((entriesOf_record_sublist log entry file).trans ?_)
    by_cases h : entry.fileId = file <;> simp [h]

/-- A file without entries has no errors. -/
theorem hasErrorsFor_eq_false_iff {log : ErrorLog} {file : FileId} :
    log.hasErrorsFor file = false ↔ log.entriesOf file = [] := by
  simp [hasErrorsFor, entriesOf]

end ErrorLog

/-- Setting a key adds no entry but its own. -/
theorem Entries.filter_put_sublist {κ α : Type} [LT κ] [DecidableLT κ] [DecidableEq κ]
    (entries : Entries κ α) {key : κ} {value : α} {keep : κ × α → Bool}
    (h : keep (key, value) = false) :
    ((entries.put key value).filter keep).Sublist (entries.filter keep) := by
  induction entries with
  | nil => simp [put, h]
  | cons entry rest ih =>
    obtain ⟨first, old⟩ := entry
    unfold put
    split
    · rw [List.filter_cons_of_neg (by simp [h])]
      exact (List.sublist_cons_self ..).filter _
    · split
      · rw [List.filter_cons_of_neg (by simp [h])]
      · rw [List.filter_cons, List.filter_cons]
        split
        · exact ih.cons_cons _
        · exact ih

/-- What touches one open file only opens and closes none. -/
theorem Editor.TouchesOnly.isOpen_eq {id : FileId} {before after : Editor}
    (h : TouchesOnly id before after) (file : FileId) : after.isOpen file = before.isOpen file := by
  by_cases hfile : file = id
  · subst hfile
    obtain ⟨old, new, hold, hnew, -⟩ := h.itself
    rw [isOpen_iff.2 ⟨old, hold⟩, isOpen_iff.2 ⟨new, hnew⟩]
  · rw [Bool.eq_iff_iff, isOpen_iff, isOpen_iff, h.others file hfile]

namespace Session

variable {σ : Type}

/-- The pending requests for a file. -/
def pendingOf (session : Session σ) (file : FileId) : Entries RequestId PendingRequest :=
  session.pending.filter fun entry => entry.2.fileId = file

/-! ## Requests that are used up -/

/-- Nothing new is asked for a file: requests for it are only used up, and what comes into the log
for it records such requests, at most once each and in one of the given ways. -/
structure Fades (file : FileId) (kinds : List LogKind) (before after : Session σ) : Prop where
  pending : (after.pendingOf file).Sublist (before.pendingOf file)
  log : ∃ new : List LogEntry,
    (after.log.entriesOf file).Sublist (new ++ before.log.entriesOf file) ∧
    new.length + (after.pendingOf file).length ≤ (before.pendingOf file).length ∧
    ∀ entry ∈ new, ∃ waiting ∈ before.pendingOf file, entry.Records kinds waiting.2

section Fading

variable {file : FileId} {kinds : List LogKind} {before between after : Session σ}

/-- Nothing is recorded. -/
theorem Fades.of_sublist (hpending : (after.pendingOf file).Sublist (before.pendingOf file))
    (hlog : (after.log.entriesOf file).Sublist (before.log.entriesOf file)) :
    Fades file kinds before after :=
  ⟨hpending, [], hlog, by simpa using hpending.length_le, nofun⟩

/-- The requests and the log are as they were. -/
theorem Fades.of_eq (hpending : after.pending = before.pending) (hlog : after.log = before.log) :
    Fades file kinds before after := by
  refine .of_sublist ?_ ?_
  · rw [pendingOf, hpending]
    exact .refl _
  · rw [hlog]

/-- What is recorded later was pending before. -/
theorem Fades.trans (hfirst : Fades file kinds before between)
    (hsecond : Fades file kinds between after) : Fades file kinds before after := by
  obtain ⟨first, hfirstLog, hfirstCount, hfirstNew⟩ := hfirst.log
  obtain ⟨second, hsecondLog, hsecondCount, hsecondNew⟩ := hsecond.log
  refine ⟨hsecond.pending.trans hfirst.pending, second ++ first, ?_, ?_, fun entry hentry => ?_⟩
  · rw [List.append_assoc]
    exact hsecondLog.trans ((List.Sublist.refl _).append hfirstLog)
  · rw [List.length_append]
    omega
  · rcases List.mem_append.1 hentry with hmem | hmem
    · obtain ⟨waiting, hwaiting, hrecords⟩ := hsecondNew entry hmem
      exact ⟨waiting, hfirst.pending.subset hwaiting, hrecords⟩
    · exact hfirstNew entry hmem

end Fading

section Steps

variable {file : FileId} {kinds : List LogKind}

/-- A failure of another file leaves the entries of this one. -/
theorem fades_fail (session : Session σ) {entry : LogEntry} (h : entry.fileId ≠ file) :
    Fades file kinds session (session.fail entry).2 := by
  refine .of_sublist (.refl _) ?_
  have hlog := session.log.entriesOf_record_sublist entry file
  rwa [List.filter_cons_of_neg (by simpa using h)] at hlog

/-- Clearing the errors of any file only removes entries. -/
theorem fades_clearErrors (session : Session σ) (cleared : FileId) :
    Fades file kinds session (session.clearErrors cleared) :=
  .of_sublist (.refl _) (session.log.entriesOf_clear_sublist cleared file)

/-- An outcome for another file leaves the entries of this one. -/
theorem fades_apply (session : Session σ) (around : Surroundings) {id : FileId} (h : id ≠ file)
    (fileName : String) (range : Option Span) (outcome : Except ErrorInfo FormatResult) :
    Fades file kinds session (session.apply around id fileName range outcome).2 := by
  cases outcome with
  | error error => exact fades_fail session h
  | ok result =>
    cases hfile : session.editor.file? id with
    | none => exact .of_eq (by rw [apply, hfile]) (by rw [apply, hfile])
    | some opened =>
      rw [apply_ok hfile]
      exact .of_sublist (.refl _) (session.log.entriesOf_clear_sublist id file)

/-- A format of another file leaves the requests and the entries of this one. -/
theorem fades_formatIn (session : Session σ) (around : Surroundings) (scope : Scope) {id : FileId}
    (h : id ≠ file) : Fades file kinds session (session.formatIn around scope id).2 := by
  cases hfile : session.editor.file? id with
  | none => exact .of_eq (by rw [formatIn_closed hfile]) (by rw [formatIn_closed hfile])
  | some opened =>
    rw [formatIn_open hfile]
    cases hoptions : session.optionsFor around opened with
    | error error =>
      rw [dispatchWith_error hoptions]
      exact fades_fail session h
    | ok options =>
      have hjob : (scope.job id opened options).fileId ≠ file := by
        rwa [(scope.job_file id opened options).1]
      rw [dispatchWith_ok hoptions]
      cases hmode : session.mode with
      | inline formatter =>
        rw [dispatch_inline hmode]
        let called : Session σ := { session with
          lastId := session.lastId + 1
          mode := .inline (session.format formatter (scope.job id opened options).request).2 }
        have hcalled : Fades file kinds session called := .of_eq rfl rfl
        exact hcalled.trans (fades_apply called around hjob ..)
      | background worker =>
        cases hrunning : worker.isRunning with
        | true =>
          rw [dispatch_running hmode hrunning]
          exact .of_sublist (session.pending.filter_put_sublist (by simp [Job.awaited, hjob]))
            (.refl _)
        | false =>
          rw [dispatch_stopped hmode hrunning]
          have hnumbered : Fades file kinds session { session with lastId := session.lastId + 1 } :=
            .of_eq rfl rfl
          exact hnumbered.trans (fades_fail _ (by exact hjob))

/-- A request that is no longer pending leaves those of its file. -/
theorem pendingOf_forget_sublist (session : Session σ) (id : RequestId) :
    ((session.forget id).pendingOf file).Sublist (session.pendingOf file) :=
  List.filter_sublist.filter _

/-- A request that is no longer pending leaves one less. -/
theorem length_pendingOf_forget_lt {session : Session σ} {id : RequestId} {request : PendingRequest}
    (h : session.pending.find? id = some request) :
    ((session.forget id).pendingOf request.fileId).length <
      (session.pendingOf request.fileId).length := by
  have hmem : (id, request) ∈ session.pendingOf request.fileId :=
    List.mem_filter.2 ⟨Entries.mem_of_find? h, by simp⟩
  have hforget : (session.forget id).pendingOf request.fileId =
      (session.pendingOf request.fileId).filter fun entry => entry.1 ≠ id :=
    List.filter_comm ..
  rw [hforget]
  exact List.length_filter_lt_length_iff_exists.2 ⟨_, hmem, by simp⟩

/-- A response uses up its request. It is recorded as a failure only for a file that is open. -/
theorem fades_handleResponse (session : Session σ) (around : Surroundings)
    (response : WorkerResponse)
    (hkinds : session.editor.isOpen file = true → .format ∈ kinds) :
    Fades file kinds session (session.handleResponse around response).2 := by
  cases hawaited : session.pending.find? response.id with
  | none =>
    rw [handleResponse_unawaited hawaited]
    exact .of_eq rfl rfl
  | some request =>
    have hforget : Fades file kinds session (session.forget response.id) :=
      .of_sublist (pendingOf_forget_sublist session response.id) (.refl _)
    by_cases hdeliver : session.Deliverable request response
    · rw [handleResponse_deliverable hawaited hdeliver]
      by_cases hfile : request.fileId = file
      · subst hfile
        cases houtcome : response.outcome with
        | error error =>
          rw [apply_error]
          refine ⟨pendingOf_forget_sublist session response.id, [⟨request.fileId, request.fileName,
            .format, error.message, around.stamp⟩], ?_, ?_, ?_⟩
          · exact (ErrorLog.entriesOf_record_sublist ..).trans
              (List.filter_sublist.append (.refl _))
          · have hlt := length_pendingOf_forget_lt hawaited
            rw [List.length_singleton]
            exact Nat.add_comm 1 _ ▸ hlt
          · intro entry hentry
            rw [List.mem_singleton.1 hentry]
            exact ⟨_, List.mem_filter.2 ⟨Entries.mem_of_find? hawaited, by simp⟩,
              rfl, rfl, hkinds hdeliver.2⟩
        | ok result =>
          obtain ⟨opened, hopen⟩ := Editor.isOpen_iff.1 hdeliver.2
          have hstill : (session.forget response.id).editor.file? request.fileId = some opened :=
            hopen
          rw [apply_ok hstill]
          exact .of_sublist (pendingOf_forget_sublist session response.id)
            (session.log.entriesOf_clear_sublist request.fileId request.fileId)
      · exact hforget.trans (fades_apply _ around hfile ..)
    · rw [handleResponse_undeliverable hawaited hdeliver]
      exact hforget

/-- Requests that are given up are recorded as such. -/
theorem fades_expireStale (session : Session σ) (around : Surroundings)
    (hkinds : .timeout ∈ kinds) : Fades file kinds session (session.expireStale around).2 := by
  let isStale (entry : RequestId × PendingRequest) : Bool := session.isStale around.now entry.2
  let timedOut (entry : RequestId × PendingRequest) : LogEntry :=
    ⟨entry.2.fileId, entry.2.fileName, .timeout, timeoutMessage session.timeout, around.stamp⟩
  have hlog : (session.expireStale around).2.log =
      ((session.pending.filter isStale).map timedOut).foldl ErrorLog.record session.log := by
    rw [List.foldl_map]
    rfl
  have hpending : (session.expireStale around).2.pendingOf file =
      (session.pendingOf file).filter fun entry => !isStale entry :=
    List.filter_comm ..
  -- the stale requests of this file, and what is recorded of them
  have hstale : (((session.pending.filter isStale).map timedOut).filter
      fun entry => entry.fileId = file) =
        ((session.pendingOf file).filter isStale).map timedOut := by
    rw [List.filter_map]
    exact congrArg (List.map timedOut) (List.filter_comm ..)
  refine ⟨hpending ▸ List.filter_sublist, (((session.pendingOf file).filter isStale).map
    timedOut).reverse, ?_, ?_, fun entry hentry => ?_⟩
  · rw [hlog, ← hstale]
    exact ErrorLog.entriesOf_foldl_record_sublist ..
  · rw [hpending, List.length_reverse, List.length_map]
    exact Nat.le_of_eq (List.length_eq_length_filter_add isStale).symm
  · obtain ⟨waiting, hwaiting, rfl⟩ := List.mem_map.1 (List.mem_reverse.1 hentry)
    exact ⟨waiting, List.mem_of_mem_filter hwaiting, rfl, rfl, hkinds⟩

/-- Taking responses leaves requests and log alone. -/
theorem fades_withResponses (session : Session σ) (responses : List WorkerResponse) :
    Fades file kinds session (session.withResponses responses) := by
  rw [withResponses]
  split
  · exact .of_eq rfl rfl
  · exact .of_eq rfl rfl

/-- A worker that stops leaves requests and log alone. -/
theorem fades_stopWorker (session : Session σ) : Fades file kinds session session.stopWorker := by
  rw [stopWorker]
  split
  · exact .of_eq rfl rfl
  · exact .of_eq rfl rfl

end Steps

/-! ## Which files are open -/

/-- Taking responses leaves the editor alone. -/
@[simp] theorem editor_withResponses (session : Session σ) (responses : List WorkerResponse) :
    (session.withResponses responses).editor = session.editor := by
  rw [withResponses]
  split <;> rfl

/-- A worker that stops leaves the editor alone. -/
@[simp] theorem editor_stopWorker (session : Session σ) :
    session.stopWorker.editor = session.editor := by
  rw [stopWorker]
  split <;> rfl

/-- A response opens and closes no file. -/
@[simp] theorem isOpen_handleResponse (session : Session σ) (around : Surroundings)
    (response : WorkerResponse) (file : FileId) :
    (session.handleResponse around response).2.editor.isOpen file = session.editor.isOpen file := by
  obtain ⟨htells, -⟩ := session.handleResponse_tells around response
  by_cases happlied : (session.handleResponse around response).1 = .applied
  · rw [Tells, happlied] at htells
    exact htells.editor.isOpen_eq file
  · rw [htells.editor_eq happlied]

/-! ## Requests that are used up by calls -/

section Calls

variable {file : FileId} {kinds : List LogKind}

/-- Responses use up their requests. -/
theorem fades_handleAll (session : Session σ) (around : Surroundings)
    (responses : List WorkerResponse)
    (hkinds : session.editor.isOpen file = true → .format ∈ kinds) :
    Fades file kinds session (session.handleAll around responses) := by
  induction responses generalizing session with
  | nil => exact .of_eq rfl rfl
  | cons response later ih =>
    refine (fades_handleResponse session around response hkinds).trans (ih _ ?_)
    rwa [isOpen_handleResponse]

/-- Polling uses up requests. -/
theorem fades_poll (session : Session σ) (around : Surroundings) (htimeout : .timeout ∈ kinds)
    (hformat : session.editor.isOpen file = true → .format ∈ kinds) :
    Fades file kinds session (session.poll around).2 := by
  have hhandled : Fades file kinds (session.withResponses [])
      ((session.withResponses []).handleAll around session.responses) :=
    fades_handleAll _ around _ (by rwa [editor_withResponses])
  exact ((fades_withResponses session []).trans hhandled).trans
    (fades_expireStale _ around htimeout)

/-- Waiting uses up requests. -/
theorem fades_waitIdle (session : Session σ) (around : Surroundings) (coming : List Happening)
    (htimeout : .timeout ∈ kinds)
    (hformat : session.editor.isOpen file = true → .format ∈ kinds) :
    Fades file kinds session (session.waitIdle around coming).2 := by
  -- formats of the file are recorded only while it is open, and waiting neither opens nor closes it
  refine (waitIdle_keeps (fun later => Fades file kinds session later ∧
    (later.editor.isOpen file = true → .format ∈ kinds)) ?_ ?_ ?_ ?_ around coming
      ⟨.of_eq rfl rfl, hformat⟩).1
  · intro later around response ⟨hfades, hopen⟩
    refine ⟨hfades.trans (fades_handleResponse later around response hopen), ?_⟩
    rwa [isOpen_handleResponse]
  · exact fun later around h => ⟨h.1.trans (fades_expireStale later around htimeout), h.2⟩
  · intro later responses ⟨hfades, hopen⟩
    exact ⟨hfades.trans (fades_withResponses later responses), by rwa [editor_withResponses]⟩
  · intro later ⟨hfades, hopen⟩
    exact ⟨hfades.trans (fades_stopWorker later), by rwa [editor_stopWorker]⟩

/-- A call asks for a format of an open file. -/
def Asks (file : FileId) (session : Session σ) : Call σ → Prop
  | .execute _ .formatSelection =>
    session.editor.active = some file ∧ session.editor.isOpen file = true
  | .formatFile _ id => id = file ∧ session.editor.isOpen file = true
  | _ => False

/-- A format that is not asked for an open file leaves its requests and entries. -/
theorem fades_formatIn_of_not_asked (session : Session σ) (around : Surroundings) (scope : Scope)
    {id : FileId} (h : ¬ (id = file ∧ session.editor.isOpen file = true)) :
    Fades file kinds session (session.formatIn around scope id).2 := by
  by_cases hid : id = file
  · subst hid
    have hclosed : session.editor.file? id = none :=
      Editor.isOpen_eq_false_iff.1 (Bool.eq_false_iff.2 fun hopen => h ⟨rfl, hopen⟩)
    rw [formatIn_closed hclosed]
    exact .of_eq rfl rfl
  · exact fades_formatIn session around scope hid

/-- A command that does not ask for a format of an open file leaves its requests and entries. -/
theorem fades_execute (session : Session σ) (around : Surroundings) (command : Command)
    (h : ¬ session.Asks file (.execute around command)) :
    Fades file kinds session (session.execute around command).2 := by
  cases command with
  | showLogs => exact .of_eq rfl rfl
  | formatSelection =>
    cases hactive : session.editor.active with
    | none => exact .of_eq (by simp only [execute, hactive]) (by simp only [execute, hactive])
    | some id =>
      simp only [execute, hactive]
      refine fades_formatIn_of_not_asked session around .selection fun hasked => h ?_
      exact ⟨hactive.trans (congrArg some hasked.1), hasked.2⟩

/-- A click on a log entry leaves requests and log alone. -/
theorem fades_openLogEntry (session : Session σ) (index : Nat) :
    Fades file kinds session (session.openLogEntry index).2 := by
  rw [openLogEntry]
  split
  · exact .of_eq rfl rfl
  · split
    · exact .of_eq rfl rfl
    · exact .of_eq rfl rfl

/-- A changed setting leaves requests and log alone. -/
theorem fades_changeSetting (session : Session σ) (files : Files.FileSystem) (name : String)
    (value : Json.Value) : Fades file kinds session (session.changeSetting files name value) := by
  obtain ⟨store, hstore⟩ := session.exists_changeSetting_eq files name value
  rw [hstore]
  exact .of_eq rfl rfl

/-- A call that does not ask for a format of the file uses up its requests. -/
theorem fades_called (session : Session σ) (call : Call σ) (hcall : ¬ session.Asks file call)
    (htimeout : .timeout ∈ kinds)
    (hformat : session.editor.isOpen file = true → .format ∈ kinds) :
    Fades file kinds session (session.called call) := by
  cases call with
  | execute around command => exact fades_execute session around command hcall
  | formatFile around id => exact fades_formatIn_of_not_asked session around .document hcall
  | poll around => exact fades_poll session around htimeout hformat
  | waitIdle around coming => exact fades_waitIdle session around coming htimeout hformat
  | fileRemoved id => exact fades_clearErrors session id
  | openLogEntry index => exact fades_openLogEntry session index
  | settingsChange files name value => exact fades_changeSetting session files name value
  | elsewhere editor worker => exact .of_eq rfl rfl

/-- Something holds whenever one of the calls is made. -/
def Throughout (holds : Session σ → Call σ → Prop) : Session σ → List (Call σ) → Prop
  | _, [] => True
  | session, call :: later => holds session call ∧ Throughout holds (session.called call) later

/-- No call asks for a format of the file while it is open. -/
abbrev NeverAsks (file : FileId) : Session σ → List (Call σ) → Prop :=
  Throughout fun session call => ¬ session.Asks file call

/-- The file is closed whenever something is called. -/
abbrev StaysClosed (file : FileId) : Session σ → List (Call σ) → Prop :=
  Throughout fun session _ => session.editor.isOpen file = false

/-- Calls that do not ask for a format of the file use up its requests. -/
theorem fades_calledAll (session : Session σ) (calls : List (Call σ))
    (hcalls : session.NeverAsks file calls) (htimeout : .timeout ∈ kinds)
    (hformat : session.StaysClosed file calls ∨ .format ∈ kinds) :
    Fades file kinds session (session.calledAll calls) := by
  induction calls generalizing session with
  | nil => exact .of_eq rfl rfl
  | cons call later ih =>
    obtain ⟨hcall, hlater⟩ := hcalls
    refine (fades_called session call hcall htimeout fun hopen => ?_).trans (ih _ hlater ?_)
    · exact hformat.resolve_left fun hclosed => Bool.false_ne_true (hclosed.1.symm.trans hopen)
    · exact hformat.imp_left And.right

end Calls

/-- What may be in the log for a file after its errors were cleared, and then no format of it is
asked for while it is open, whatever is called. Each entry records a request that was pending when
they were cleared: as given up, or as failed if the file was opened again. There are no more
entries than such requests that are pending no longer, so there are none if none was pending. -/
theorem closed_file_leaves_requests_under_way (session : Session σ) (file : FileId)
    (calls : List (Call σ)) (hcalls : (session.clearErrors file).NeverAsks file calls) :
    let later := (session.clearErrors file).calledAll calls
    (later.log.entriesOf file).length + (later.pendingOf file).length ≤
        (session.pendingOf file).length ∧
      (∀ entry ∈ later.log.entriesOf file, ∃ waiting ∈ session.pendingOf file,
        entry.Records [.timeout, .format] waiting.2) ∧
      ((session.clearErrors file).StaysClosed file calls →
        ∀ entry ∈ later.log.entriesOf file, ∃ waiting ∈ session.pendingOf file,
          entry.Records [.timeout] waiting.2) ∧
      (session.pendingOf file = [] → later.log.hasErrorsFor file = false) := by
  intro later
  have hcleared : (session.clearErrors file).log.entriesOf file = [] := by
    show (session.log.clear file).entriesOf file = []
    simp [ErrorLog.entriesOf, ErrorLog.clear]
  -- the log was empty for this file, so all that is there now is new
  have hnew (kinds : List LogKind) (hfades : Fades file kinds (session.clearErrors file) later) :
      (later.log.entriesOf file).length + (later.pendingOf file).length ≤
          (session.pendingOf file).length ∧
        ∀ entry ∈ later.log.entriesOf file, ∃ waiting ∈ session.pendingOf file,
          entry.Records kinds waiting.2 := by
    obtain ⟨new, hlog, hcount, hrecords⟩ := hfades.log
    rw [hcleared, List.append_nil] at hlog
    have hpending : (session.clearErrors file).pendingOf file = session.pendingOf file := rfl
    rw [hpending] at hcount hrecords
    have hlength := hlog.length_le
    exact ⟨by omega, fun entry hentry => hrecords entry (hlog.subset hentry)⟩
  obtain ⟨hcount, hrecords⟩ := hnew [.timeout, .format]
    (fades_calledAll _ calls hcalls (by simp) (.inr (by simp)))
  refine ⟨hcount, hrecords, fun hclosed => ?_, fun hnone => ?_⟩
  · exact (hnew [.timeout] (fades_calledAll _ calls hcalls (by simp) (.inl hclosed))).2
  · rw [hnone, List.length_nil] at hcount
    exact ErrorLog.hasErrorsFor_eq_false_iff.2 (List.length_eq_zero_iff.1 (by omega))

/-- A session in which a file was closed while a request for it was under way. -/
def hasty : Session Unit :=
  impatient.calledAll [.formatFile default "a",
    .elsewhere (impatient.editor.closeFile "a") (.start ())]

/-- The request is given up once, however often the session looks for what is stale. -/
theorem closed_file_leaves_request_given_up :
    let calls : List (Call Unit) :=
      [.poll { (default : Surroundings) with now := 10 }, .fileRemoved "b",
        .poll { (default : Surroundings) with now := 20 }]
    (hasty.clearErrors "a").NeverAsks "a" calls ∧ (hasty.pendingOf "a").length = 1 ∧
      ∃ entry : LogEntry,
        ((hasty.clearErrors "a").calledAll calls).log.entriesOf "a" = [entry] ∧
        entry.kind = .timeout := by
  intro calls
  have hcalls : (hasty.clearErrors "a").NeverAsks "a" calls :=
    ⟨not_false, not_false, not_false, trivial⟩
  have hstays : (hasty.clearErrors "a").StaysClosed "a" calls :=
    ⟨by decide +kernel, by decide +kernel, by decide +kernel, trivial⟩
  have hpending : (hasty.pendingOf "a").length = 1 := by decide +kernel
  obtain ⟨hcount, -, htimeout, -⟩ := closed_file_leaves_requests_under_way hasty "a" calls hcalls
  have hsome : ((hasty.clearErrors "a").calledAll calls).log.entriesOf "a" ≠ [] := by
    decide +kernel
  rw [hpending] at hcount
  obtain ⟨entry, hentry⟩ : ∃ entry,
      ((hasty.clearErrors "a").calledAll calls).log.entriesOf "a" = [entry] := by
    refine List.length_eq_one_iff.1 ?_
    have hlength := List.length_pos_iff.2 hsome
    omega
  obtain ⟨waiting, -, hrecords⟩ := htimeout hstays entry (by simp [hentry])
  exact ⟨hcalls, hpending, entry, hentry, List.mem_singleton.1 hrecords.kind⟩

/-- After a file was closed and its errors were cleared, the log holds nothing about it until it is
opened and formatted again. -/
def ForgetsClosed (first : Session σ) : Prop :=
  ∀ (earlier calls : List (Call σ)) (file : FileId),
    (first.calledAll earlier).editor.isOpen file = false →
    ((first.calledAll earlier).clearErrors file).NeverAsks file calls →
    (((first.calledAll earlier).clearErrors file).calledAll calls).log.hasErrorsFor file = false

/-- Only responses are dropped for a closed file. A request for it that is given up is recorded. -/
theorem given_up_request_is_recorded : ¬ impatient.ForgetsClosed := by
  intro h
  have hforgotten := h [.formatFile default "a",
    .elsewhere (impatient.editor.closeFile "a") (.start ())]
    [.poll { (default : Surroundings) with now := 10 }] "a" (by decide +kernel)
    ⟨not_false, trivial⟩
  revert hforgotten
  decide +kernel

end Session

end EditorFormat
