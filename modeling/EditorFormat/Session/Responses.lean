import EditorFormat.Session.Dispatch

/-!
# Responses and timeouts

A response is put into the document while its request is pending and its file is open; any other
response is dropped. A request that stays pending too long is given up. `waitIdle` goes on until
no request is pending.
-/

namespace EditorFormat

namespace Session

variable {σ : Type}

/-- Let a request be pending no longer. -/
def forget (session : Session σ) (id : RequestId) : Session σ :=
  { session with pending := session.pending.remove id }

/-- Put a response into the document of its request, if it is for the same file and the file is
still open. -/
def settle (session : Session σ) (around : Surroundings) (request : PendingRequest)
    (response : WorkerResponse) : Disposition × Session σ :=
  if request.fileId ≠ response.fileId ∨ session.editor.isOpen request.fileId = false then
    (.dropped, session)
  else
    session.apply around request.fileId request.fileName request.selectionRange response.outcome

/-- Handle one response. Its request is pending no longer, whatever comes of the response. -/
def handleResponse (session : Session σ) (around : Surroundings) (response : WorkerResponse) :
    Disposition × Session σ :=
  match session.pending.find? response.id with
  | none => (.dropped, session)
  | some request => (session.forget response.id).settle around request response

/-- Handle responses one after the other. -/
def handleAll (session : Session σ) (around : Surroundings) (responses : List WorkerResponse) :
    Session σ :=
  responses.foldl (fun session response => (session.handleResponse around response).2) session

/-- Whether a request was pending for too long. -/
def isStale (session : Session σ) (now : Nat) (request : PendingRequest) : Bool :=
  session.timeout ≤ now - request.issuedAt

/-- The message about a request that was given up. -/
def timeoutMessage (timeout : Nat) : String :=
  "Formatter did not respond within " ++ Decimal.seconds timeout ++ " seconds."

/-- Give up the requests that were pending for too long. The user is told once about all of them.
Gives their number. -/
def expireStale (session : Session σ) (around : Surroundings) : Nat × Session σ :=
  let stale := session.pending.filter fun entry => session.isStale around.now entry.2
  let record (log : ErrorLog) (entry : RequestId × PendingRequest) : ErrorLog :=
    log.record ⟨entry.2.fileId, entry.2.fileName, .timeout, timeoutMessage session.timeout,
      around.stamp⟩
  let notifier :=
    if stale.isEmpty then session.notifier
    else session.notifier.surface session.settings.opensLogOnError
  (stale.length,
    { session with
      pending := session.pending.filter fun entry => !session.isStale around.now entry.2
      log := stale.foldl record session.log
      notifier })

/-- Handle every response that has arrived, then give up stale requests. Gives the number of
responses. -/
def poll (session : Session σ) (around : Surroundings) : Nat × Session σ :=
  let responses := session.responses
  let session := (session.withResponses []).handleAll around responses
  (responses.length, (session.expireStale around).2)

/-- Handle the oldest response that has arrived, if there is one. -/
def nextResponse (session : Session σ) (around : Surroundings) :
    Option Disposition × Session σ :=
  match session.responses with
  | [] => (none, session)
  | response :: later =>
    let (disposition, session) := (session.withResponses later).handleResponse around response
    (some disposition, session)

/-! ## Waiting -/

/-- What may happen while a session waits. -/
inductive Happening where
  /-- Nanoseconds pass. -/
  | passes (duration : Nat)
  /-- The worker answers. -/
  | arrives (response : WorkerResponse)
  /-- The worker stops without answering. -/
  | stops
deriving DecidableEq, Repr, Inhabited

/-- The first time that the clock cannot tell. It counts its seconds in a signed word of 64 bits. -/
def clockEnd : Nat := UInt64.size / 2 * Decimal.nanosPerSecond

/-- How waiting ends. -/
inductive Waited where
  /-- There is nothing to wait for at this time. -/
  | returns (now : Nat)
  /-- At this time a deadline is needed that the clock cannot tell, and the program ends. -/
  | panics (now : Nat)
deriving DecidableEq, Repr, Inhabited

/-- Whether a worker is running. -/
def hasWorker (session : Session σ) : Bool :=
  match session.mode with
  | .inline _ => false
  | .background worker => worker.isRunning

/-- The worker stops without answering. -/
def stopWorker (session : Session σ) : Session σ :=
  match session.mode with
  | .inline _ => session
  | .background worker =>
    { session with mode := .background { worker with isRunning := false, requests := [] } }

/-- The time at which the oldest pending request was sent. -/
def oldest? (session : Session σ) : Option Nat :=
  (session.pending.map fun entry => entry.2.issuedAt).min?

/-- Putting an outcome into a document leaves the requests under way alone. -/
@[simp] theorem pending_apply (session : Session σ) (around : Surroundings) (id : FileId)
    (fileName : String) (range : Option Span) (outcome : Except ErrorInfo FormatResult) :
    (session.apply around id fileName range outcome).2.pending = session.pending := by
  cases outcome with
  | error error => rfl
  | ok result => cases h : session.editor.file? id <;> simp [apply, h, clearErrors]

/-- Putting an outcome into a document leaves the worker alone. -/
@[simp] theorem responses_apply (session : Session σ) (around : Surroundings) (id : FileId)
    (fileName : String) (range : Option Span) (outcome : Except ErrorInfo FormatResult) :
    (session.apply around id fileName range outcome).2.responses = session.responses := by
  cases outcome with
  | error error => rfl
  | ok result => cases h : session.editor.file? id <;> simp [apply, h, clearErrors, responses]

/-- Handling a response makes no request pending. -/
theorem length_pending_handleResponse_le (session : Session σ) (around : Surroundings)
    (response : WorkerResponse) :
    (session.handleResponse around response).2.pending.length ≤ session.pending.length := by
  unfold handleResponse settle
  split
  · exact Nat.le_refl _
  · split
    · exact List.length_filter_le ..
    · rw [pending_apply]
      exact List.length_filter_le ..

/-- Handling a response leaves the worker alone. -/
@[simp] theorem responses_handleResponse (session : Session σ) (around : Surroundings)
    (response : WorkerResponse) :
    (session.handleResponse around response).2.responses = session.responses := by
  unfold handleResponse settle
  split
  · rfl
  · split
    · rfl
    · rw [responses_apply]
      rfl

/-- Giving up requests leaves the worker alone. -/
@[simp] theorem responses_expireStale (session : Session σ) (around : Surroundings) :
    (session.expireStale around).2.responses = session.responses :=
  rfl

/-- The oldest request is given up when its time has come. -/
theorem length_pending_expireStale_lt {session : Session σ} {around : Surroundings} {oldest : Nat}
    (h : session.oldest? = some oldest) (hnow : oldest + session.timeout ≤ around.now) :
    (session.expireStale around).2.pending.length < session.pending.length := by
  have hmem : oldest ∈ session.pending.map fun entry => entry.2.issuedAt := List.min?_mem h
  obtain ⟨entry, hentry, rfl⟩ := List.mem_map.1 hmem
  refine List.length_filter_lt_length_iff_exists.2 ⟨entry, hentry, ?_⟩
  have hstale : session.timeout ≤ around.now - entry.2.issuedAt := by omega
  simp [isStale, hstale]

/-- Waiting responses are those of the worker. -/
theorem responses_withResponses_le (session : Session σ) (responses : List WorkerResponse) :
    (session.withResponses responses).responses.length ≤ responses.length := by
  unfold withResponses
  split
  · rename_i h
    simp [Session.responses, h]
  · simp [Session.responses]

@[simp] theorem pending_withResponses (session : Session σ) (responses : List WorkerResponse) :
    (session.withResponses responses).pending = session.pending := by
  unfold withResponses
  split <;> rfl

/-- Wait until no request is pending: handle each response that arrives, and give up what is stale
whenever the oldest request is. After the given happenings nothing but time passes. A deadline that
the clock cannot tell ends the program. -/
def waitIdle (session : Session σ) (around : Surroundings) (coming : List Happening) :
    Waited × Session σ :=
  match _ : session.oldest? with
  | none => (.returns around.now, session)
  | some oldest =>
    let deadline := oldest + session.timeout
    if clockEnd ≤ deadline then (.panics around.now, session)
    else if !session.isBackground then (.returns around.now, session)
    else
      match _ : session.responses with
      | response :: later =>
        waitIdle ((session.withResponses later).handleResponse around response).2 around coming
      | [] =>
        if !session.hasWorker then
          if clockEnd ≤ around.now + session.timeout then (.panics around.now, session)
          else (.returns around.now, (session.expireStale (around.ahead session.timeout)).2)
        else
          match coming with
          | .arrives response :: coming => waitIdle (session.withResponses [response]) around coming
          | .stops :: coming => waitIdle session.stopWorker around coming
          | .passes duration :: coming =>
            let later := { around with now := around.now + duration }
            if deadline ≤ later.now then waitIdle (session.expireStale later).2 later coming
            else waitIdle session later coming
          | [] =>
            let later := { around with now := max around.now deadline }
            waitIdle (session.expireStale later).2 later []
termination_by (coming.length, session.pending.length + session.responses.length)
decreasing_by
  · have hpending := length_pending_handleResponse_le (session.withResponses later) around response
    have hle := responses_withResponses_le session later
    rw [pending_withResponses] at hpending
    refine Prod.Lex.right _ ?_
    rw [responses_handleResponse, ‹session.responses = response :: later›, List.length_cons]
    omega
  · exact Prod.Lex.left _ _ (Nat.lt_succ_self _)
  · exact Prod.Lex.left _ _ (Nat.lt_succ_self _)
  · exact Prod.Lex.left _ _ (Nat.lt_succ_self _)
  · exact Prod.Lex.left _ _ (Nat.lt_succ_self _)
  · refine Prod.Lex.right _ (Nat.add_lt_add_of_lt_of_le ?_ (Nat.le_refl _))
    exact length_pending_expireStale_lt ‹session.oldest? = some oldest› (Nat.le_max_right ..)

/-- What the turns of waiting keep is kept by waiting: handling a response, giving up requests, and
what the worker does meanwhile. -/
theorem waitIdle_keeps (keeps : Session σ → Prop)
    (hhandle : ∀ session around response, keeps session →
      keeps (session.handleResponse around response).2)
    (hexpire : ∀ session around, keeps session → keeps (session.expireStale around).2)
    (hresponses : ∀ session responses, keeps session → keeps (session.withResponses responses))
    (hstop : ∀ session, keeps session → keeps session.stopWorker)
    {session : Session σ} (around : Surroundings) (coming : List Happening) (h : keeps session) :
    keeps (session.waitIdle around coming).2 := by
  fun_induction waitIdle session around coming with
  | case1 | case2 | case3 => exact h
  | case4 session around coming oldest holdest deadline hend hmode response later hmore ih =>
    exact ih (hhandle _ around response (hresponses session later h))
  | case5 => exact h
  | case6 session => exact hexpire session _ h
  | case7 session around oldest holdest deadline hend hmode hnone hworker response coming ih =>
    exact ih (hresponses session [response] h)
  | case8 session around oldest holdest deadline hend hmode hnone hworker coming ih =>
    exact ih (hstop session h)
  | case9 session around oldest holdest deadline hend hmode hnone hworker duration coming later
      hstale ih =>
    exact ih (hexpire session later h)
  | case10 session around oldest holdest deadline hend hmode hnone hworker duration coming
      later hstale ih =>
    exact ih h
  | case11 session around oldest holdest deadline hend hmode hnone hworker later ih =>
    exact ih (hexpire session later h)

end Session

end EditorFormat
