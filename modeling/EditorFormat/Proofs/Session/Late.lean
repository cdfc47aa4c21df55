import EditorFormat.Proofs.Session.Correlation

/-!
# Late responses

Between the moment at which a job takes its text and the moment at which its response is handled
the document may change. The response is put into the document as it is then, and nothing compares
that with the text of the job (`applies_to_edited_documents`). `late_response_lands` states, for
every run in between, when a response is applied and what its result takes the place of.
-/

namespace EditorFormat

namespace Job

/-- What a result of the job takes the place of in a text. -/
def covered (job : Job) (text : String) : String :=
  match job.selectionRange with
  | none => text
  | some span => span.covered text

/-- What a result of the job puts into a text. -/
def insertion (job : Job) (result : FormatResult) : String :=
  match job.selectionRange with
  | none => result.text
  | some _ => Session.dropFinalNewline result.text

/-- The text still holds what the job was made of. -/
def IsCurrent (job : Job) (text : String) : Prop :=
  job.covered text = job.code

instance (job : Job) (text : String) : Decidable (job.IsCurrent text) :=
  inferInstanceAs (Decidable (_ = _))

/-- A result takes the place of what its job covers, and leaves what is before and after it. -/
theorem withResult_splice (job : Job) (file : OpenFile) (result : FormatResult) :
    ∃ before after : String,
      file.text = before ++ job.covered file.text ++ after ∧
      (file.withResult job.selectionRange result).text =
        before ++ job.insertion result ++ after := by
  unfold covered insertion
  cases job.selectionRange with
  | none =>
    refine ⟨"", "", by simp, ?_⟩
    rw [OpenFile.text_withResult_none]
    simp
  | some span =>
    obtain ⟨before, after, hold, hnew⟩ := span.replace_eq_splice file.text
    exact ⟨before, after, hold, hnew _⟩

/-- The result of a response took the place of what the job covered in its file, and nothing else in
the editor was touched. -/
structure Lands (job : Job) (response : WorkerResponse) (before after : Editor) : Prop where
  touches_only : Editor.TouchesOnly job.fileId before after
  file : ∃ current result, before.file? job.fileId = some current ∧
    response.outcome = .ok result ∧
    after.file? job.fileId = some (current.withResult job.selectionRange result) ∧
    ∃ first last : String, current.text = first ++ job.covered current.text ++ last ∧
      (current.withResult job.selectionRange result).text = first ++ job.insertion result ++ last

/-- What becomes of a response to a job, whatever the document holds now. -/
structure Answered {σ : Type} (job : Job) (session : Session σ) (response : WorkerResponse)
    (step : Disposition × Session σ) : Prop where
  applied_iff : step.1 = .applied ↔
    response.id ∈ session.pending.keys ∧ response.fileId = job.fileId ∧
      session.editor.isOpen job.fileId = true ∧ ∃ result, response.outcome = .ok result
  dropped_iff : step.1 = .dropped ↔
    ¬ (response.id ∈ session.pending.keys ∧ response.fileId = job.fileId ∧
      session.editor.isOpen job.fileId = true)
  lands : step.1 = .applied → job.Lands response session.editor step.2.editor
  otherwise : step.1 ≠ .applied → step.2.editor = session.editor

end Job

/-- A job is made of what the document holds. -/
theorem Scope.job_isCurrent (scope : Scope) (id : FileId) (file : OpenFile)
    (options : FormatOptions) : (scope.job id file options).IsCurrent file.text := by
  cases scope with
  | document => rfl
  | selection =>
    unfold job
    cases hexpand : file.selection.expand file.text with
    | none => rfl
    | some selected => exact Span.covered_expand hexpand

namespace Session

variable {σ : Type}

/-- An awaited error for an open file is recorded. -/
theorem handleResponse_fails {session : Session σ} {response : WorkerResponse}
    {request : PendingRequest} {error : ErrorInfo}
    (hfound : session.pending.find? response.id = some request)
    (hdeliver : session.Deliverable request response) (houtcome : response.outcome = .error error)
    (around : Surroundings) : (session.handleResponse around response).1 = .failed := by
  rw [handleResponse_deliverable hfound hdeliver, houtcome, apply_error]
  rfl

/-- An awaited result for an open file is put into the file. -/
theorem handleResponse_lands {session : Session σ} {response : WorkerResponse} {job : Job}
    {issued : Nat} {result : FormatResult}
    (hfound : session.pending.find? response.id = some (job.awaited issued))
    (hdeliver : session.Deliverable (job.awaited issued) response)
    (houtcome : response.outcome = .ok result) (around : Surroundings) :
    (session.handleResponse around response).1 = .applied ∧
      job.Lands response session.editor (session.handleResponse around response).2.editor := by
  obtain ⟨file, hfile⟩ := Editor.isOpen_iff.1 hdeliver.2
  have hopen : (session.forget response.id).editor.file? (job.awaited issued).fileId = some file :=
    hfile
  rw [handleResponse_deliverable hfound hdeliver, houtcome, apply_ok hopen]
  refine ⟨rfl, putResult_touches_only hfile job.selectionRange result, ?_⟩
  exact ⟨file, result, hfile, houtcome, file?_putResult hfile job.selectionRange result,
    job.withResult_splice file result⟩

/-- A response is put into the document for the job that waits under its number. -/
theorem handleResponse_answers {session : Session σ} {response : WorkerResponse} {job : Job}
    {issued : Nat} (h : ∀ request, session.pending.find? response.id = some request →
      request = job.awaited issued) (around : Surroundings) :
    job.Answered session response (session.handleResponse around response) := by
  obtain ⟨htells, hkept⟩ := session.handleResponse_tells around response
  have hdelivered : (∃ request, session.pending.find? response.id = some request ∧
      session.Deliverable request response) ↔ response.id ∈ session.pending.keys ∧
        response.fileId = job.fileId ∧ session.editor.isOpen job.fileId = true := by
    rw [Entries.mem_keys_iff_find?]
    constructor
    · rintro ⟨request, hfound, hfile, hopen⟩
      obtain rfl := h request hfound
      exact ⟨⟨_, hfound⟩, hfile.symm, hopen⟩
    · rintro ⟨⟨request, hfound⟩, hfile, hopen⟩
      obtain rfl := h request hfound
      exact ⟨_, hfound, hfile.symm, hopen⟩
  have happlied (hdone : (session.handleResponse around response).1 = .applied) :
      (∃ result, response.outcome = .ok result) ∧
        job.Lands response session.editor (session.handleResponse around response).2.editor := by
    obtain ⟨request, hfound, hdeliver⟩ := hkept.1 (hdone ▸ nofun)
    obtain rfl := h request hfound
    cases houtcome : response.outcome with
    | error error =>
      have hfailed := handleResponse_fails hfound hdeliver houtcome around
      exact absurd (hdone.symm.trans hfailed) nofun
    | ok result => exact ⟨⟨result, rfl⟩, (handleResponse_lands hfound hdeliver houtcome around).2⟩
  refine ⟨⟨fun hdone => ?_, ?_⟩, ?_, fun hdone => (happlied hdone).2, htells.editor_eq⟩
  · obtain ⟨hpending, hfile, hopen⟩ := hdelivered.1 (hkept.1 (hdone ▸ nofun))
    exact ⟨hpending, hfile, hopen, (happlied hdone).1⟩
  · rintro ⟨hpending, hfile, hopen, result, houtcome⟩
    obtain ⟨request, hfound, hdeliver⟩ := hdelivered.2 ⟨hpending, hfile, hopen⟩
    obtain rfl := h request hfound
    exact (handleResponse_lands hfound hdeliver houtcome around).1
  · rw [← hdelivered, ← hkept, Decidable.not_not]

/-- Whatever happens between a format command and the response to its job, the response is applied
exactly when its request is still pending, it is for the file of the job, that file is open, and it
brings a result. The result takes the place of what the job covers in the text as it is then. In all
other cases the editor stays as it was. -/
theorem late_response_lands (store : Store) (hasSideButtons : Bool) (format : Formatter σ)
    (worker : Worker σ) (timeout : Nat) (earlier between : List (Move σ))
    (around later : Surroundings) (scope : Scope) (id : FileId) (response : WorkerResponse)
    (hqueued : (((start store hasSideButtons format (.background worker) timeout).run
      earlier).formatIn around scope id).1 = .queued response.id) :
    let captured := (start store hasSideButtons format (.background worker) timeout).run earlier
    let session := captured.run (.format around scope id :: between)
    ∃ file options, captured.editor.file? id = some file ∧
      captured.optionsFor around file = .ok options ∧
      (scope.job id file options).IsCurrent file.text ∧
      (scope.job id file options).Answered session response
        (session.handleResponse later response) := by
  intro captured session
  have haccount : captured.Accounted _ := .of_run rfl earlier
  obtain ⟨file, options, running, hfile, hoptions, -, hformat⟩ | hnothing :=
    captured.formatIn_cases around scope id
  · refine ⟨file, options, hfile, hoptions, scope.job_isCurrent id file options, ?_⟩
    have hnumber : captured.lastId + 1 = response.id := by
      rw [hformat] at hqueued
      exact Disposition.queued.inj hqueued
    have hlast : (captured.after (.format around scope id)).lastId = response.id := by
      simp only [Session.after, hformat, hnumber]
    -- Later commands use later numbers, so the table still holds this job or no other one.
    have hwaiting : ∀ request, session.pending.find? response.id = some request →
        request = (scope.job id file options).awaited around.now := by
      intro request hfound
      have hissued := (haccount.after (.format around scope id)).pending_before_run
        (Nat.le_of_eq hlast.symm) hfound
      rw [Session.after, hformat, ← hnumber, Entries.find?_put_self] at hissued
      exact (Option.some.inj hissued).symm
    exact handleResponse_answers hwaiting later
  · exact absurd hqueued (hnothing.ne_queued response.id)

/-! ## A document that is edited in between -/

/-- A session whose formatter tidies every text away. -/
def scratch : Session Unit :=
  start default false (fun _ _ => (.returned (.plain "tidy\n"), ())) (.background (.start ()))
    defaultTimeout

/-- The user edits one script and marks its second line. -/
def typing (text : String) : Move Unit :=
  let script : OpenFile := ⟨"script.js", none, text, ⟨0, 0⟩, ⟨⟨1, 0⟩, ⟨1, 3⟩⟩⟩
  .elsewhere default (Editor.empty.openFile "script" script) (.start false) (.start ())

/-- What the worker answers to the first job. -/
def tidied (selectionRange : Option Span) : WorkerResponse :=
  ⟨1, "script", formatAction, some (.plain "tidy\n"), none, selectionRange.isSome, selectionRange⟩

/-- A line is typed above the selected one while its job is under way. The other line goes. -/
theorem late_response_lands_on_other_line :
    ((scratch.run [typing "one\ntwo"]).formatIn default .selection "script").1 = .queued 1 ∧
      ∃ file options,
        (scratch.run [typing "one\ntwo"]).editor.file? "script" = some file ∧
        (scratch.run [typing "one\ntwo"]).optionsFor default file = .ok options ∧
        (Scope.selection.job "script" file options).IsCurrent file.text ∧
        (Scope.selection.job "script" file options).Answered
          ((scratch.run [typing "one\ntwo"]).run
            [.format default .selection "script", typing "new\none\ntwo"])
          (tidied (some ⟨⟨1, 0⟩, ⟨1, 3⟩⟩))
          (((scratch.run [typing "one\ntwo"]).run
            [.format default .selection "script", typing "new\none\ntwo"]).handleResponse default
              (tidied (some ⟨⟨1, 0⟩, ⟨1, 3⟩⟩))) :=
  ⟨by decide, late_response_lands _ _ _ _ _ [typing "one\ntwo"] [typing "new\none\ntwo"] default
    default .selection "script" (tidied (some ⟨⟨1, 0⟩, ⟨1, 3⟩⟩)) (by decide)⟩

/-- Results are put into a document only while it holds what their job was made of. -/
def AppliesToCurrent (first : Session σ) (scope : Scope) : Prop :=
  ∀ (earlier between : List (Move σ)) (around later : Surroundings) (id : FileId)
    (response : WorkerResponse) (file current : OpenFile) (options : FormatOptions),
    (first.run earlier).editor.file? id = some file →
    ((first.run earlier).formatIn around scope id).1 = .queued response.id →
    ((first.run earlier).run (.format around scope id :: between)).editor.file? id = some current →
    (((first.run earlier).run (.format around scope id :: between)).handleResponse later
      response).1 = .applied →
    (scope.job id file options).IsCurrent current.text

/-- Nothing compares a document with the text of a job: a document that was edited is overwritten as
a whole, and a selection that moved is put over other lines. -/
theorem applies_to_edited_documents :
    ¬ scratch.AppliesToCurrent .document ∧ ¬ scratch.AppliesToCurrent .selection := by
  constructor
  · intro h
    have hcurrent := h [typing "one\ntwo"] [typing "new\none\ntwo"] default default "script"
      (tidied none) _ _ default rfl (by decide) rfl (by decide)
    exact absurd hcurrent (by decide)
  · intro h
    have hcurrent := h [typing "one\ntwo"] [typing "new\none\ntwo"] default default "script"
      (tidied (some ⟨⟨1, 0⟩, ⟨1, 3⟩⟩)) _ _ default rfl (by decide) rfl (by decide)
    exact absurd hcurrent (by decide)

end Session

end EditorFormat
