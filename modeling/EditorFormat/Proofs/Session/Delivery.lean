import EditorFormat.Proofs.Session.Paths

/-!
# How an outcome comes back

A dispatched job is answered at once when the formatter runs in place, and otherwise by a response
to the number under which it was queued. `Delivers` is either of the two, so that what a result does
to a document is stated once (`Delivers.lands`).
-/

namespace EditorFormat

namespace Session

variable {σ : Type}

/-- A step brings the outcome of a job that a session dispatched. `before` is the session in which
that step is taken: the same one in place, and any later one that still awaits the response. -/
inductive Delivers (session : Session σ) (around : Surroundings) (job : Job) (outcome : Outcome) :
    Session σ → Disposition × Session σ → Prop where
  | inPlace {formatter : σ} (hmode : session.mode = .inline formatter)
      (houtcome : (session.format formatter job.request).1.outcome = outcome) :
      Delivers session around job outcome session (session.dispatch around job)
  | response {number : RequestId} {between : Session σ} {later : Surroundings}
      (hqueued : (session.dispatch around job).1 = .queued number)
      (hpending : between.pending.find? number =
        (session.dispatch around job).2.pending.find? number) :
      Delivers session around job outcome between
        (between.handleResponse later ((job.message number).envelope.respond outcome))

/-- A queued job is awaited under its number. -/
theorem pending_of_queued {session : Session σ} {around : Surroundings} {job : Job}
    {number : RequestId} (h : (session.dispatch around job).1 = .queued number) :
    (session.dispatch around job).2.pending.find? number = some (job.awaited around.now) := by
  cases hmode : session.mode with
  | inline formatter =>
    rw [dispatch_inline hmode] at h
    exact absurd h (apply_ne_queued _ _ _ _ _ _ _)
  | background worker =>
    cases hrunning : worker.isRunning with
    | true =>
      rw [dispatch_running hmode hrunning] at h ⊢
      rw [← Disposition.queued.inj h]
      exact Entries.find?_put_self ..
    | false =>
      rw [dispatch_stopped hmode hrunning] at h
      exact absurd h nofun

/-- A result is put into an open file, and into no other one. -/
theorem apply_lands {session : Session σ} {id : FileId} {file : OpenFile}
    (h : session.editor.file? id = some file) (around : Surroundings) (fileName : String)
    (selectionRange : Option Span) (result : FormatResult) :
    let step := session.apply around id fileName selectionRange (.ok result)
    step.1 = .applied ∧ Editor.TouchesOnly id session.editor step.2.editor ∧
      step.2.editor.file? id = some (file.withResult selectionRange result) := by
  intro step
  have hstep : step = _ := apply_ok h around fileName selectionRange result
  rw [hstep]
  exact ⟨rfl, putResult_touches_only h selectionRange result,
    file?_putResult h selectionRange result⟩

/-- A result that comes back is put into its file as that file is then, and into no other one. -/
theorem Delivers.lands {session before : Session σ} {around : Surroundings} {job : Job}
    {result : FormatResult} {step : Disposition × Session σ} {file : OpenFile}
    (h : session.Delivers around job (.ok result) before step)
    (hfile : before.editor.file? job.fileId = some file) :
    step.1 = .applied ∧ Editor.TouchesOnly job.fileId before.editor step.2.editor ∧
      step.2.editor.file? job.fileId = some (file.withResult job.selectionRange result) := by
  cases h with
  | inPlace hmode houtcome =>
    rw [dispatch_inline hmode]
    simp only [houtcome]
    refine apply_lands ?_ around job.fileName job.selectionRange result
    exact hfile
  | @response number _ later hqueued hpending =>
    have hawaited := hpending.trans (pending_of_queued hqueued)
    have hdeliver : before.Deliverable (job.awaited around.now)
        ((job.message number).envelope.respond (.ok result)) :=
      ⟨rfl, Editor.isOpen_iff.2 ⟨file, hfile⟩⟩
    rw [handleResponse_deliverable hawaited hdeliver]
    refine apply_lands ?_ _ _ _ _
    exact hfile

end Session

end EditorFormat
