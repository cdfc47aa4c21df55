import EditorFormat.Proofs.Session.Alerts
import EditorFormat.Proofs.Session.Modes
import EditorFormat.Proofs.Session.Run
import Mathlib.Data.List.Basic

/-!
# Responses for different files

What a response comes to depends on its request and on the file of the request only
(`receptionOf`). It changes that file and the log entries of that file, so two responses for
different files do not get in the way of each other: each comes to the same in either order, and so
do the documents, the pending requests, the log entries and the side button
(`responses_for_different_files_commute`).
-/

namespace EditorFormat

/-- What is found after a change of one file. -/
theorem Editor.file?_modifyFile (editor : Editor) (changed id : FileId)
    (change : OpenFile → OpenFile) :
    (editor.modifyFile changed change).file? id =
      if id = changed then (editor.file? id).map change else editor.file? id := by
  by_cases hid : id = changed
  · subst hid
    rw [if_pos rfl]
    cases hfile : editor.file? id with
    | none => simp [modifyFile, hfile]
    | some file => exact file?_modifyFile_self hfile change
  · rw [if_neg hid, file?_modifyFile_of_ne editor hid]

/-- Two files are changed in either order. -/
theorem Editor.file?_modifyFile_comm (editor : Editor) {first second : FileId}
    (h : first ≠ second) (change other : OpenFile → OpenFile) (id : FileId) :
    ((editor.modifyFile first change).modifyFile second other).file? id =
      ((editor.modifyFile second other).modifyFile first change).file? id := by
  simp only [file?_modifyFile]
  by_cases hfirst : id = first
  · subst hfirst
    simp [h]
  · simp [hfirst]

/-- A log with entries has errors. -/
theorem ErrorLog.hasErrors_iff {log : ErrorLog} : log.hasErrors = true ↔ log.entries ≠ [] := by
  simp [hasErrors]

/-- A log with entries of a file has errors. -/
theorem ErrorLog.hasErrors_of_hasErrorsFor {log : ErrorLog} {file : FileId}
    (h : log.hasErrorsFor file = true) : log.hasErrors = true := by
  obtain ⟨entry, hentry, -⟩ := List.any_eq_true.1 h
  exact hasErrors_iff.2 (List.ne_nil_of_mem hentry)

/-! ## What a response comes to -/

/-- What a response to a pending request comes to. -/
inductive Reception where
  /-- It is for another file, or the file is not open. -/
  | drop
  /-- It brings an error. -/
  | fail (fileName message : String)
  /-- It brings a result. This is the file with the result. -/
  | put (file : OpenFile)

namespace Reception

/-- What is told about it. -/
def outcome : Reception → Disposition
  | .drop => .dropped
  | .fail .. => .failed
  | .put _ => .applied

/-- The editor afterwards. -/
def edit (id : FileId) : Reception → Editor → Editor
  | .put file, editor => editor.modifyFile id fun _ => file
  | .drop, editor | .fail .., editor => editor

/-- The log afterwards. -/
def enter (id : FileId) (stamp : Stamp) : Reception → ErrorLog → ErrorLog
  | .drop, log => log
  | .fail fileName message, log => log.record ⟨id, fileName, .format, message, stamp⟩
  | .put _, log => log.clear id

/-- The entries that come into the log. -/
def entries (id : FileId) (stamp : Stamp) : Reception → List LogEntry
  | .fail fileName message => [⟨id, fileName, .format, message, stamp⟩]
  | .drop | .put _ => []

/-- Whether an entry stays in the log. -/
def spares (id : FileId) : Reception → LogEntry → Bool
  | .put _, entry => entry.fileId ≠ id
  | .drop, _ | .fail .., _ => true

variable (first second : Reception) {firstId secondId : FileId}

/-- The other files stay as they are. -/
theorem file?_edit_of_ne {id : FileId} (h : id ≠ firstId) (editor : Editor) :
    (first.edit firstId editor).file? id = editor.file? id := by
  cases first with
  | drop | fail => rfl
  | put file => exact Editor.file?_modifyFile_of_ne editor h _

/-- Both files are the same in either order. -/
theorem file?_edit_comm (hne : firstId ≠ secondId) (editor : Editor) (id : FileId) :
    (second.edit secondId (first.edit firstId editor)).file? id =
      (first.edit firstId (second.edit secondId editor)).file? id := by
  cases first with
  | drop | fail => rfl
  | put file =>
    cases second with
    | drop | fail => rfl
    | put other => exact editor.file?_modifyFile_comm hne _ _ id

/-- What is not a file stays as it is. -/
theorem active_folders_edit (id : FileId) (editor : Editor) :
    (first.edit id editor).active = editor.active ∧
      (first.edit id editor).folders = editor.folders := by
  cases first with
  | drop | fail => exact ⟨rfl, rfl⟩
  | put file => exact ⟨Editor.active_modifyFile .., Editor.folders_modifyFile ..⟩

/-- Entries of another file stay in the log. -/
theorem spares_of_ne {entry : LogEntry} (h : entry.fileId ≠ firstId) :
    first.spares firstId entry = true := by
  cases first with
  | drop | fail => rfl
  | put file => exact decide_eq_true h

/-- New entries are of the file of the response. -/
theorem fileId_of_mem_entries {stamp : Stamp} {entry : LogEntry}
    (h : entry ∈ first.entries firstId stamp) : entry.fileId = firstId := by
  cases first with
  | drop | put => exact absurd h List.not_mem_nil
  | fail fileName message => rw [List.mem_singleton.1 h]

/-- The entries that come into the log are the same at all times. -/
theorem entries_unstamped (id : FileId) (early late : Stamp) :
    (first.entries id early).map LogEntry.unstamped =
      (first.entries id late).map LogEntry.unstamped := by
  cases first <;> rfl

/-- Nothing comes into the log without a failure. -/
theorem entries_enter_of_ne_failed (h : first.outcome ≠ .failed) (id : FileId) (stamp : Stamp)
    (log : ErrorLog) :
    (first.enter id stamp log).entries = log.entries.filter (first.spares id) := by
  cases first with
  | drop => exact (List.filter_eq_self.2 fun _ _ => rfl).symm
  | fail fileName message => exact absurd rfl h
  | put file => rfl

/-- A log with room for one more entry loses none but those of the file. -/
theorem entries_enter {log : ErrorLog} (h : log.entries.length + 1 ≤ ErrorLog.capacity)
    (id : FileId) (stamp : Stamp) :
    (first.enter id stamp log).entries =
      first.entries id stamp ++ log.entries.filter (first.spares id) := by
  cases first with
  | drop => exact (List.filter_eq_self.2 fun _ _ => rfl).symm
  | fail fileName message =>
    have hkept : log.entries.filter (spares id (.fail fileName message)) = log.entries :=
      List.filter_eq_self.2 fun _ _ => rfl
    rw [hkept]
    exact List.take_of_length_le h
  | put file => rfl

/-- One entry at most comes into the log. -/
theorem length_entries_enter_le (id : FileId) (stamp : Stamp) (log : ErrorLog) :
    (first.enter id stamp log).entries.length ≤ log.entries.length + 1 := by
  cases first with
  | drop => exact Nat.le_succ _
  | fail fileName message => exact List.length_take_le' ..
  | put file => exact Nat.le_succ_of_le (List.length_filter_le ..)

/-- A log with room for two more entries has those of both responses, and what both spare. -/
theorem entries_enter_enter (hne : firstId ≠ secondId) {log : ErrorLog}
    (h : log.entries.length + 2 ≤ ErrorLog.capacity) (early late : Stamp) :
    (second.enter secondId late (first.enter firstId early log)).entries =
      second.entries secondId late ++ first.entries firstId early ++
        (log.entries.filter (first.spares firstId)).filter (second.spares secondId) := by
  have hroom := first.length_entries_enter_le firstId early log
  have hspared : (first.entries firstId early).filter (second.spares secondId) =
      first.entries firstId early :=
    List.filter_eq_self.2 fun entry hentry =>
      second.spares_of_ne (first.fileId_of_mem_entries hentry ▸ hne)
  rw [second.entries_enter (by omega), first.entries_enter (by omega), List.filter_append, hspared,
    List.append_assoc]

/-- With room for both the log has the same entries in either order. What is seen of an entry may
leave out when it was made. -/
theorem entries_perm {α : Type} (see : LogEntry → α) (hne : firstId ≠ secondId) {log : ErrorLog}
    (h : log.entries.length + 2 ≤ ErrorLog.capacity) {firstEarly firstLate secondEarly
      secondLate : Stamp}
    (hfirst : (first.entries firstId firstEarly).map see =
      (first.entries firstId firstLate).map see)
    (hsecond : (second.entries secondId secondLate).map see =
      (second.entries secondId secondEarly).map see) :
    ((second.enter secondId secondLate (first.enter firstId firstEarly log)).entries.map see).Perm
      ((first.enter firstId firstLate
        (second.enter secondId secondEarly log)).entries.map see) := by
  rw [first.entries_enter_enter second hne h, second.entries_enter_enter first hne.symm h,
    List.filter_comm]
  simp only [List.map_append, hfirst, hsecond]
  exact List.perm_append_comm.append_right _

/-! ## When there are errors -/

/-- A failure leaves an entry of its file. -/
theorem exists_mem_enter (h : first.outcome = .failed) (id : FileId) (stamp : Stamp)
    (log : ErrorLog) : ∃ entry ∈ (first.enter id stamp log).entries, entry.fileId = id := by
  cases first with
  | drop | put => exact absurd h (by simp [outcome])
  | fail fileName message => exact ⟨_, List.mem_cons_self, rfl⟩

/-- A failure leaves a log with errors. -/
theorem hasErrors_enter (h : first.outcome = .failed) (id : FileId) (stamp : Stamp)
    (log : ErrorLog) : (first.enter id stamp log).hasErrors = true := by
  obtain ⟨entry, hentry, -⟩ := first.exists_mem_enter h id stamp log
  exact ErrorLog.hasErrors_iff.2 (List.ne_nil_of_mem hentry)

/-- Without a failure there are no errors where there were none. -/
theorem hasErrors_of_enter (h : first.outcome ≠ .failed) {id : FileId} {stamp : Stamp}
    {log : ErrorLog} (herrors : (first.enter id stamp log).hasErrors = true) :
    log.hasErrors = true := by
  rw [ErrorLog.hasErrors_iff, first.entries_enter_of_ne_failed h] at herrors
  rw [ErrorLog.hasErrors_iff]
  exact fun hempty => herrors (by rw [hempty, List.filter_nil])

/-- After both there are errors when one of them failed, or when both spare some. -/
theorem hasErrors_enter_enter (hne : firstId ≠ secondId) (log : ErrorLog) (early late : Stamp) :
    (second.enter secondId late (first.enter firstId early log)).hasErrors = true ↔
      (first.outcome = .failed ∨ second.outcome = .failed) ∨
        (log.entries.filter (first.spares firstId)).filter (second.spares secondId) ≠ [] := by
  by_cases hsecond : second.outcome = .failed
  · simp only [second.hasErrors_enter hsecond, hsecond, or_true, true_or]
  · rw [ErrorLog.hasErrors_iff, second.entries_enter_of_ne_failed hsecond]
    by_cases hfirst : first.outcome = .failed
    · -- the new entry is of another file, so it stays
      obtain ⟨entry, hentry, hfile⟩ := first.exists_mem_enter hfirst firstId early log
      have hspared := second.spares_of_ne (hfile.symm ▸ hne)
      simp only [hfirst, true_or, iff_true]
      exact List.ne_nil_of_mem (List.mem_filter.2 ⟨hentry, hspared⟩)
    · simp only [first.entries_enter_of_ne_failed hfirst, hfirst, hsecond, or_self, false_or]

/-- The side button stays over both responses when neither of them takes the last error away. -/
theorem stays_enter_enter (hne : firstId ≠ secondId) (log : ErrorLog) (early late : Stamp)
    (seen : Prop) :
    (second.outcome = .failed ∨
      (first.outcome = .failed ∨
        seen ∧ (log.hasErrors = true → (first.enter firstId early log).hasErrors = true)) ∧
      ((first.enter firstId early log).hasErrors = true →
        (second.enter secondId late (first.enter firstId early log)).hasErrors = true)) ↔
    (first.outcome = .failed ∨ second.outcome = .failed) ∨
      seen ∧ (log.hasErrors = true →
        (second.enter secondId late (first.enter firstId early log)).hasErrors = true) := by
  have hboth := first.hasErrors_enter_enter second hne log early late
  by_cases hsecond : second.outcome = .failed
  · simp only [hsecond, true_or, or_true]
  · by_cases hfirst : first.outcome = .failed
    · -- the error of the first response is still there after the second one
      simp only [hboth, hfirst, true_or, or_true, true_and, implies_true]
    · -- no error comes up, so errors that are there in the end were there all the time
      have hlast : (second.enter secondId late (first.enter firstId early log)).hasErrors = true →
          (first.enter firstId early log).hasErrors = true := second.hasErrors_of_enter hsecond
      have hmiddle : (first.enter firstId early log).hasErrors = true → log.hasErrors = true :=
        first.hasErrors_of_enter hfirst
      simp only [hfirst, hsecond, false_or, and_assoc]
      refine and_congr_right fun _ => ⟨fun ⟨hone, hboth⟩ herrors => hboth (hone herrors), ?_⟩
      exact fun hkept => ⟨fun herrors => hlast (hkept herrors), fun hone => hkept (hmiddle hone)⟩

end Reception

namespace Session

variable {σ : Type}

/-- What a response to a request comes to, in an editor. -/
def receptionOf (editor : Editor) (request : PendingRequest) (response : WorkerResponse) :
    Reception :=
  if request.fileId = response.fileId then
    match editor.file? request.fileId with
    | none => .drop
    | some file =>
      match response.outcome with
      | .error error => .fail request.fileName error.message
      | .ok result => .put (file.withResult request.selectionRange result)
  else .drop

/-- Take what a response comes to. -/
def receive (session : Session σ) (around : Surroundings) (id : FileId) :
    Reception → Disposition × Session σ
  | .drop => (.dropped, session)
  | .fail fileName message => session.fail ⟨id, fileName, .format, message, around.stamp⟩
  | .put file =>
    (.applied,
      { session with editor := session.editor.modifyFile id fun _ => file }.clearErrors id)

/-- A response is taken for what it comes to. -/
theorem handleResponse_eq_receive {session : Session σ} {response : WorkerResponse}
    {request : PendingRequest} (hfound : session.pending.find? response.id = some request)
    (around : Surroundings) :
    session.handleResponse around response = (session.forget response.id).receive around
      request.fileId (receptionOf session.editor request response) := by
  unfold receptionOf
  split
  · rename_i hsame
    cases hfile : session.editor.file? request.fileId with
    | none =>
      have hclosed := Editor.isOpen_eq_false_iff.2 hfile
      have hundeliverable : ¬ session.Deliverable request response := fun hdeliver =>
        Bool.false_ne_true (hclosed.symm.trans hdeliver.2)
      rw [handleResponse_undeliverable hfound hundeliverable]
      rfl
    | some file =>
      have hdeliver : session.Deliverable request response :=
        ⟨hsame, Editor.isOpen_iff.2 ⟨file, hfile⟩⟩
      have hforgotten : (session.forget response.id).editor.file? request.fileId = some file :=
        hfile
      rw [handleResponse_deliverable hfound hdeliver]
      cases response.outcome with
      | error error => rfl
      | ok result =>
        rw [apply_ok hforgotten, putResult_eq hforgotten]
        rfl
  · rename_i hother
    exact handleResponse_undeliverable hfound (fun hdeliver => hother hdeliver.1) around

/-- Only the file of the request tells what a response comes to. -/
theorem receptionOf_congr {editor other : Editor} {request : PendingRequest}
    (h : other.file? request.fileId = editor.file? request.fileId) (response : WorkerResponse) :
    receptionOf other request response = receptionOf editor request response := by
  rw [receptionOf, receptionOf, h]

@[simp] theorem editor_forget (session : Session σ) (number : RequestId) :
    (session.forget number).editor = session.editor :=
  rfl

@[simp] theorem log_forget (session : Session σ) (number : RequestId) :
    (session.forget number).log = session.log :=
  rfl

@[simp] theorem notifier_forget (session : Session σ) (number : RequestId) :
    (session.forget number).notifier = session.notifier :=
  rfl

section Receiving

variable (session : Session σ) (around : Surroundings) (id : FileId) (reception : Reception)

@[simp] theorem outcome_receive :
    (session.receive around id reception).1 = reception.outcome := by
  cases reception <;> rfl

@[simp] theorem editor_receive :
    (session.receive around id reception).2.editor = reception.edit id session.editor := by
  cases reception <;> rfl

@[simp] theorem log_receive :
    (session.receive around id reception).2.log =
      reception.enter id around.stamp session.log := by
  cases reception <;> rfl

/-- The side button is seen after a failure, and otherwise stays until the last error goes. -/
theorem sideButton_receive :
    (session.receive around id reception).2.notifier.isSideButtonVisible = true ↔
      reception.outcome = .failed ∨ session.notifier.isSideButtonVisible = true ∧
        (session.log.hasErrors = true →
          (reception.enter id around.stamp session.log).hasErrors = true) := by
  cases reception with
  | drop => simp [receive, Reception.outcome, Reception.enter]
  | fail fileName message =>
    have hshown := Notifier.isSideButtonVisible_surface session.notifier
      session.settings.opensLogOnError
    exact iff_of_true hshown (.inl rfl)
  | put file =>
    show Notifier.isSideButtonVisible (if _ then _ else _) = true ↔ _
    simp only [Reception.outcome, Reception.enter, reduceCtorEq, false_or]
    cases hfile : session.log.hasErrorsFor id with
    | false => simp [ErrorLog.clear_eq_self hfile]
    | true =>
      have herrors := ErrorLog.hasErrors_of_hasErrorsFor hfile
      cases hleft : (session.log.clear id).hasErrors <;> simp [herrors, Notifier.post]

end Receiving

/-! ## Two responses in turn -/

/-- Two responses were taken one after the other, each for what it came to before both. -/
structure TakesBoth (session : Session σ) (firstId secondId : FileId) (first second : Reception)
    (early late : Stamp) (one both : Disposition × Session σ) : Prop where
  first_outcome : one.1 = first.outcome
  second_outcome : both.1 = second.outcome
  editor : both.2.editor = second.edit secondId (first.edit firstId session.editor)
  log : both.2.log = second.enter secondId late (first.enter firstId early session.log)
  /-- The side button is seen when one of them failed, and otherwise stays until the last error
  goes. -/
  sideButton : both.2.notifier.isSideButtonVisible = true ↔
    (first.outcome = .failed ∨ second.outcome = .failed) ∨
      session.notifier.isSideButtonVisible = true ∧
        (session.log.hasErrors = true → both.2.log.hasErrors = true)

section Two

variable {session : Session σ} {first second : WorkerResponse}
  {firstRequest secondRequest : PendingRequest}

/-- The first of two responses for different files leaves the second one to come to the same. -/
theorem takesBoth (hfirst : session.pending.find? first.id = some firstRequest)
    (hsecond : session.pending.find? second.id = some secondRequest)
    (hne : firstRequest.fileId ≠ secondRequest.fileId) (early late : Surroundings) :
    session.TakesBoth firstRequest.fileId secondRequest.fileId
      (receptionOf session.editor firstRequest first)
      (receptionOf session.editor secondRequest second) early.stamp late.stamp
      (session.handleResponse early first)
      ((session.handleResponse early first).2.handleResponse late second) := by
  have hids : second.id ≠ first.id := fun hsame => by
    rw [hsame, hfirst] at hsecond
    exact hne (congrArg PendingRequest.fileId (Option.some.inj hsecond))
  have hone := handleResponse_eq_receive hfirst early
  have heditor : (session.handleResponse early first).2.editor =
      (receptionOf session.editor firstRequest first).edit firstRequest.fileId session.editor := by
    rw [hone, editor_receive, editor_forget]
  have hlog : (session.handleResponse early first).2.log =
      (receptionOf session.editor firstRequest first).enter firstRequest.fileId early.stamp
        session.log := by
    rw [hone, log_receive, log_forget]
  have hseen := sideButton_receive (session.forget first.id) early firstRequest.fileId
    (receptionOf session.editor firstRequest first)
  rw [← hone, notifier_forget, log_forget] at hseen
  have hfound : (session.handleResponse early first).2.pending.find? second.id =
      some secondRequest := by
    rw [pending_handleResponse, Entries.find?_remove_of_ne _ hids, hsecond]
  -- the file of the second request is as it was, so its response still comes to the same
  have hfile : (session.handleResponse early first).2.editor.file? secondRequest.fileId =
      session.editor.file? secondRequest.fileId := by
    rw [heditor, Reception.file?_edit_of_ne _ hne.symm]
  have hboth := handleResponse_eq_receive hfound late
  rw [receptionOf_congr hfile] at hboth
  refine ⟨?_, ?_, ?_, ?_, ?_⟩
  · rw [hone, outcome_receive]
  · rw [hboth, outcome_receive]
  · rw [hboth, editor_receive, editor_forget, heditor]
  · rw [hboth, log_receive, log_forget, hlog]
  · rw [hboth, sideButton_receive, log_receive, notifier_forget, log_forget, hseen, hlog]
    exact Reception.stays_enter_enter _ _ hne session.log _ _ _

/-- Two sessions have the same documents, the same requests under way and the same side button. -/
structure Agrees (one other : Session σ) : Prop where
  file : ∀ id, one.editor.file? id = other.editor.file? id
  active : one.editor.active = other.editor.active
  folders : one.editor.folders = other.editor.folders
  pending : one.pending = other.pending
  sideButton : one.notifier.isSideButtonVisible = other.notifier.isSideButtonVisible

/-- Two responses to requests for different files may be handled in either order, each of them at
any time. They have the same outcomes, and leave the same documents, requests and side button. A log
with room for two more entries has the same entries, but for the stamps of new ones. -/
theorem responses_for_different_files_commute
    (hfirst : session.pending.find? first.id = some firstRequest)
    (hsecond : session.pending.find? second.id = some secondRequest)
    (hne : firstRequest.fileId ≠ secondRequest.fileId)
    (firstEarly secondLate secondEarly firstLate : Surroundings) :
    let one := session.handleResponse firstEarly first
    let both := one.2.handleResponse secondLate second
    let other := session.handleResponse secondEarly second
    let reverse := other.2.handleResponse firstLate first
    one.1 = reverse.1 ∧ both.1 = other.1 ∧ both.2.Agrees reverse.2 ∧
      (session.log.entries.length + 2 ≤ ErrorLog.capacity →
        (both.2.log.entries.map LogEntry.unstamped).Perm
            (reverse.2.log.entries.map LogEntry.unstamped) ∧
          (firstEarly.stamp = firstLate.stamp → secondLate.stamp = secondEarly.stamp →
            both.2.log.entries.Perm reverse.2.log.entries)) := by
  intro one both other reverse
  have hforth := takesBoth hfirst hsecond hne firstEarly secondLate
  have hback := takesBoth hsecond hfirst hne.symm secondEarly firstLate
  let first := receptionOf session.editor firstRequest first
  let second := receptionOf session.editor secondRequest second
  refine ⟨hforth.first_outcome.trans hback.second_outcome.symm,
    hforth.second_outcome.trans hback.first_outcome.symm, ⟨fun id => ?_, ?_, ?_, ?_, ?_⟩,
    fun hroom => ⟨?_, fun hfirstStamp hsecondStamp => ?_⟩⟩
  · rw [hforth.editor, hback.editor]
    exact first.file?_edit_comm second hne session.editor id
  · rw [hforth.editor, hback.editor]
    simp only [Reception.active_folders_edit]
  · rw [hforth.editor, hback.editor]
    simp only [Reception.active_folders_edit]
  · simp only [both, one, reverse, other, pending_handleResponse, Entries.remove]
    exact List.filter_comm ..
  · have herrors : both.2.log.hasErrors = true ↔ reverse.2.log.hasErrors = true := by
      rw [hforth.log, hback.log, Reception.hasErrors_enter_enter _ _ hne,
        Reception.hasErrors_enter_enter _ _ hne.symm, List.filter_comm,
        or_comm (a := first.outcome = .failed)]
    rw [Bool.eq_iff_iff, hforth.sideButton, hback.sideButton, herrors,
      or_comm (a := first.outcome = .failed)]
  · rw [hforth.log, hback.log]
    exact first.entries_perm second LogEntry.unstamped hne hroom (first.entries_unstamped ..)
      (second.entries_unstamped ..)
  · have hperm := first.entries_perm second (fun entry => entry) hne hroom
      (congrArg (fun stamp => (first.entries firstRequest.fileId stamp).map _) hfirstStamp)
      (congrArg (fun stamp => (second.entries secondRequest.fileId stamp).map _) hsecondStamp)
    rw [hforth.log, hback.log]
    rwa [List.map_id', List.map_id'] at hperm

end Two

/-- A session in which a request for one file was given up. Now requests for two files are under
way, and the log has the entry of the first one. -/
def twofold : Session Unit :=
  impatient.calledAll
    [.formatFile default "a", .poll { (default : Surroundings) with now := 10 },
      .formatFile default "a", .formatFile default "b"]

/-- One response clears the last entry and hides the side button, the other one fails and shows it
again. -/
theorem responses_commute_around_last_error :
    let good : WorkerResponse := ⟨2, "a", formatAction, some (.plain "tidy"), none, false, none⟩
    let bad : WorkerResponse :=
      ⟨3, "b", formatAction, none, some ⟨"Unexpected token (1:1)", none⟩, false, none⟩
    let both := (twofold.handleResponse default good).2.handleResponse default bad
    let reverse := (twofold.handleResponse default bad).2.handleResponse default good
    twofold.log.hasErrors = true ∧ (twofold.handleResponse default good).2.log.hasErrors = false ∧
      both.2.Agrees reverse.2 ∧ both.2.log.entries.Perm reverse.2.log.entries := by
  intro good bad both reverse
  have hgood : twofold.pending.find? good.id = some ⟨"a", "a.js", none, 0⟩ := by decide +kernel
  have hbad : twofold.pending.find? bad.id = some ⟨"b", "b.js", none, 0⟩ := by decide +kernel
  have hroom : twofold.log.entries.length + 2 ≤ ErrorLog.capacity := by decide +kernel
  obtain ⟨-, -, hagrees, hlog⟩ := responses_for_different_files_commute hgood hbad (by decide)
    default default default default
  exact ⟨by decide +kernel, by decide +kernel, hagrees, (hlog hroom).2 rfl rfl⟩

end Session

end EditorFormat
