import EditorFormat.Proofs.Session.Outcome
import EditorFormat.Session.Commands

/-!
# Runs of a session

A run is a list of moves: format commands, responses of any kind, expiries at any time, and
whatever happens elsewhere in between. `Session.run` is the session at the end of a run, and
`Session.history` lists which requests were queued, answered and given up on the way. What a single
move does to the numbers, the pending requests and the place of the formatter is stated by
`formatIn_cases` and `pending_handleResponse`; an expiry only filters the pending requests.
-/

namespace EditorFormat

/-- What may happen in a session whose formatter has a state of type `σ`. -/
inductive Move (σ : Type) where
  /-- The user formats a file. -/
  | format (around : Surroundings) (scope : Scope) (id : FileId)
  /-- A response comes, from wherever it may be. -/
  | respond (around : Surroundings) (response : WorkerResponse)
  /-- Requests that were pending for too long are given up. -/
  | expire (around : Surroundings)
  /-- Files are edited, opened and closed, settings are changed, other things are shown, and the
  worker goes on or stops. -/
  | elsewhere (store : Store) (editor : Editor) (notifier : Notifier) (worker : Worker σ)

/-- What became of the requests of a run. Each list is in the order of the moves. -/
structure History where
  queued : List RequestId := []
  /-- The requests that a response was taken for. -/
  answered : List RequestId := []
  /-- The requests that were given up. -/
  expired : List RequestId := []
  /-- The requests whose response changed the editor. -/
  edited : List RequestId := []

/-- One history after another. -/
instance : Append History where
  append first second :=
    ⟨first.queued ++ second.queued, first.answered ++ second.answered,
      first.expired ++ second.expired, first.edited ++ second.edited⟩

/-- Histories are put together list by list. -/
theorem History.append_def (first second : History) :
    first ++ second =
      ⟨first.queued ++ second.queued, first.answered ++ second.answered,
        first.expired ++ second.expired, first.edited ++ second.edited⟩ :=
  rfl

namespace Session

variable {σ : Type}

/-- The session after a move. -/
def after (session : Session σ) : Move σ → Session σ
  | .format around scope id => (session.formatIn around scope id).2
  | .respond around response => (session.handleResponse around response).2
  | .expire around => (session.expireStale around).2
  | .elsewhere store editor notifier worker =>
    { session with
      store, editor, notifier
      mode := match session.mode with
        | .inline formatter => .inline formatter
        | .background _ => .background worker }

/-- What a move gives back, if it gives back an outcome. -/
def disposition? (session : Session σ) : Move σ → Option Disposition
  | .format around scope id => some (session.formatIn around scope id).1
  | .respond around response => some (session.handleResponse around response).1
  | .expire _ | .elsewhere .. => none

/-- The requests that are pending before but not after. -/
def leaving (before after : Session σ) : List RequestId :=
  before.pending.keys.filter fun number => number ∉ after.pending.keys

/-- What a move does to requests, as seen from outside: the number it gives back, the requests that
leave the table, and whether the editor is another one. -/
def turn (session : Session σ) (move : Move σ) : History :=
  match move with
  | .format .. =>
    match session.disposition? move with
    | some (.queued number) => { queued := [number] }
    | _ => {}
  | .respond _ response =>
    { answered := session.leaving (session.after move)
      edited := if (session.after move).editor = session.editor then [] else [response.id] }
  | .expire _ => { expired := session.leaving (session.after move) }
  | .elsewhere .. => {}

/-- The session after a run. -/
def run (session : Session σ) (moves : List (Move σ)) : Session σ :=
  moves.foldl after session

/-- What becomes of requests in a run. -/
def history (session : Session σ) : List (Move σ) → History
  | [] => {}
  | move :: later => session.turn move ++ (session.after move).history later

/-! ## What one move does to the table of requests -/

/-- A format command queued the job of its file for a running worker, under the next number. -/
def Queues (session : Session σ) (around : Surroundings) (scope : Scope) (id : FileId) : Prop :=
  ∃ file options worker,
    session.editor.file? id = some file ∧ session.optionsFor around file = .ok options ∧
    session.mode = .background worker ∧ session.formatIn around scope id =
      (.queued (session.lastId + 1),
        { session with
          lastId := session.lastId + 1
          mode := .background { worker with
            requests := worker.requests ++
              [(scope.job id file options).message (session.lastId + 1)] }
          pending := session.pending.put (session.lastId + 1)
            ((scope.job id file options).awaited around.now) })

/-- A step queued nothing and left the table of requests as it was. With a worker it put nothing
into a document either. -/
structure QueuesNothing (before : Session σ) (step : Disposition × Session σ) : Prop where
  ne_queued : ∀ number, step.1 ≠ .queued number
  pending : step.2.pending = before.pending
  lastId_le : before.lastId ≤ step.2.lastId
  isBackground : step.2.isBackground = before.isBackground
  ne_applied : before.isBackground = true → step.1 ≠ .applied

/-- A format command queues a job or queues nothing. -/
theorem formatIn_cases (session : Session σ) (around : Surroundings) (scope : Scope)
    (id : FileId) :
    session.Queues around scope id ∨
      session.QueuesNothing (session.formatIn around scope id) := by
  cases hfile : session.editor.file? id with
  | none =>
    rw [formatIn_closed hfile]
    exact .inr ⟨nofun, rfl, Nat.le_refl _, rfl, nofun⟩
  | some file =>
    cases hoptions : session.optionsFor around file with
    | error error =>
      rw [formatIn_open hfile, dispatchWith_error hoptions]
      exact .inr ⟨nofun, rfl, Nat.le_refl _, rfl, nofun⟩
    | ok options =>
      have hformat : session.formatIn around scope id =
          session.dispatch around (scope.job id file options) := by
        rw [formatIn_open hfile, dispatchWith_ok hoptions]
      cases hmode : session.mode with
      | inline formatter =>
        rw [hformat, dispatch_inline hmode]
        refine .inr ⟨apply_ne_queued _ _ _ _ _ _, pending_apply .., ?_, ?_, ?_⟩
        · rw [lastId_apply]
          exact Nat.le_succ _
        · simp only [isBackground, mode_apply, hmode]
        · simp [isBackground, hmode]
      | background worker =>
        cases hrunning : worker.isRunning with
        | true =>
          refine .inl ⟨file, options, worker, hfile, hoptions, hmode, ?_⟩
          rw [hformat, dispatch_running hmode hrunning]
        | false =>
          rw [hformat, dispatch_stopped hmode hrunning]
          exact .inr ⟨nofun, rfl, Nat.le_succ _, rfl, nofun⟩

/-- A queued job is in the history of its move. -/
theorem turn_queued {session : Session σ} {around : Surroundings} {scope : Scope} {id : FileId}
    {number : RequestId} (h : (session.formatIn around scope id).1 = .queued number) :
    session.turn (.format around scope id) = { queued := [number] } := by
  simp only [turn, disposition?, h]

/-- A format command that queues nothing leaves no trace in the history. -/
theorem turn_not_queued {session : Session σ} {around : Surroundings} {scope : Scope} {id : FileId}
    (h : ∀ number, (session.formatIn around scope id).1 ≠ .queued number) :
    session.turn (.format around scope id) = {} := by
  simp only [turn, disposition?]
  split
  · rename_i number hqueued
    exact absurd (Option.some.inj hqueued) (h number)
  · rfl

/-- A format command is no response that changes the editor. -/
@[simp] theorem edited_turn_format (session : Session σ) (around : Surroundings) (scope : Scope)
    (id : FileId) : (session.turn (.format around scope id)).edited = [] := by
  simp only [turn]
  split <;> rfl

/-- A response ends its own request and no other. -/
@[simp] theorem pending_handleResponse (session : Session σ) (around : Surroundings)
    (response : WorkerResponse) :
    (session.handleResponse around response).2.pending = session.pending.remove response.id := by
  cases hawaited : session.pending.find? response.id with
  | none =>
    rw [handleResponse_unawaited hawaited]
    exact (Entries.remove_eq_self (Entries.find?_eq_none_iff.1 hawaited)).symm
  | some request =>
    by_cases h : session.Deliverable request response
    · rw [handleResponse_deliverable hawaited h, pending_apply]
      rfl
    · rw [handleResponse_undeliverable hawaited h]
      rfl

/-- Numbers are never given back. -/
theorem lastId_le_after (session : Session σ) (move : Move σ) :
    session.lastId ≤ (session.after move).lastId := by
  cases move with
  | format around scope id =>
    obtain ⟨file, options, worker, -, -, -, hformat⟩ | hnothing :=
      session.formatIn_cases around scope id
    · rw [after, hformat]
      exact Nat.le_succ _
    · exact hnothing.lastId_le
  | respond around response => exact Nat.le_of_eq (lastId_handleResponse ..).symm
  | expire around => exact Nat.le_refl _
  | elsewhere store editor notifier worker => exact Nat.le_refl _

/-- The formatter stays where it runs. -/
theorem isBackground_after (session : Session σ) (move : Move σ) :
    (session.after move).isBackground = session.isBackground := by
  cases move with
  | format around scope id =>
    obtain ⟨file, options, worker, -, -, hmode, hformat⟩ | hnothing :=
      session.formatIn_cases around scope id
    · simp [after, hformat, isBackground, hmode]
    · exact hnothing.isBackground
  | respond around response => simp [after, isBackground]
  | expire around => rfl
  | elsewhere store editor notifier worker =>
    unfold after isBackground
    cases session.mode <;> rfl

/-- The formatter stays where it runs for a whole run. -/
theorem isBackground_run (session : Session σ) (moves : List (Move σ)) :
    (session.run moves).isBackground = session.isBackground := by
  induction moves generalizing session with
  | nil => rfl
  | cons move later ih => exact (ih (session.after move)).trans (isBackground_after session move)

end Session

end EditorFormat
