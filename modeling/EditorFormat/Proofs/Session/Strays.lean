import EditorFormat.Proofs.Session.Delivery
import EditorFormat.Proofs.Session.Late

/-!
# Stray responses

A stray response has the number of a request, but is for another file. Without one, no request
disappears: it is pending until a move brings it a result, a log entry or the news that its file was
closed (`Concludes`), and while it is pending its response and its timeout do so (`Awaits`). A stray
response takes the request from the table before the files are compared, and is then dropped.
Nothing comes of the request any more (`Lost`). `stray_response_takes_request` states both.
-/

namespace EditorFormat

/-- A response with the number of a request, but for another file. -/
def Move.IsStray {σ : Type} (number : RequestId) (request : PendingRequest) : Move σ → Prop
  | .respond _ response => response.id = number ∧ response.fileId ≠ request.fileId
  | _ => False

namespace Session

variable {σ : Type}

/-- A move ends a pending request with a result, a log entry or a closed file. -/
inductive Concludes (session : Session σ) (number : RequestId) (request : PendingRequest) :
    Move σ → Prop where
  /-- The result of its response is put into its file. -/
  | result {around : Surroundings} {response : WorkerResponse} {file : OpenFile}
      {result : FormatResult} (hid : response.id = number)
      (hsame : response.fileId = request.fileId) (houtcome : response.outcome = .ok result)
      (hfile : session.editor.file? request.fileId = some file)
      (happlied : (session.handleResponse around response).1 = .applied)
      (hput : (session.handleResponse around response).2.editor.file? request.fileId =
        some (file.withResult request.selectionRange result)) :
      Concludes session number request (.respond around response)
  /-- The error of its response is recorded. -/
  | failure {around : Surroundings} {response : WorkerResponse} {error : ErrorInfo}
      (hid : response.id = number) (hsame : response.fileId = request.fileId)
      (houtcome : response.outcome = .error error)
      (hfailed : (session.handleResponse around response).1 = .failed)
      (hlog : (session.handleResponse around response).2.log = session.log.record
        ⟨request.fileId, request.fileName, .format, error.message, around.stamp⟩) :
      Concludes session number request (.respond around response)
  /-- Its response comes after its file was closed. -/
  | closed {around : Surroundings} {response : WorkerResponse} (hid : response.id = number)
      (hsame : response.fileId = request.fileId)
      (hclosed : session.editor.isOpen request.fileId = false) :
      Concludes session number request (.respond around response)
  /-- It is among the requests that are recorded as given up. -/
  | timeout {around : Surroundings} (hstale : (number, request) ∈ session.staleAt around.now)
      (hlog : (session.expireStale around).2.log = (session.staleAt around.now).foldl
        (fun log entry => log.record (session.timeoutEntry around entry.2)) session.log) :
      Concludes session number request (.expire around)

/-- A request is pending. Its own response concludes it, and so does an expiry once its time is
over. -/
structure Awaits (session : Session σ) (number : RequestId) (request : PendingRequest) : Prop where
  pending : session.pending.find? number = some request
  response : ∀ around response, response.id = number → response.fileId = request.fileId →
    session.Concludes number request (.respond around response)
  expiry : ∀ around, session.isStale around.now request = true →
    session.Concludes number request (.expire around)

/-- Whatever happens, nothing comes of a request any more: it is not pending, its own response is
dropped without a trace, and it is not recorded as given up. -/
structure Lost (session : Session σ) (number : RequestId) : Prop where
  not_pending : ∀ later, number ∉ (session.run later).pending.keys
  response : ∀ later around response, response.id = number →
    (session.run later).handleResponse around response = (.dropped, session.run later)
  not_answered : ∀ later, number ∉ (session.history later).answered
  not_expired : ∀ later, number ∉ (session.history later).expired
  not_edited : ∀ later, number ∉ (session.history later).edited

/-! ## Requests that are awaited -/

/-- A response for the file of its request concludes the request. -/
theorem concludes_response {session : Session σ} {response : WorkerResponse}
    {request : PendingRequest} (hfound : session.pending.find? response.id = some request)
    (hsame : response.fileId = request.fileId) (around : Surroundings) :
    session.Concludes response.id request (.respond around response) := by
  cases hopen : session.editor.isOpen request.fileId with
  | false => exact .closed rfl hsame hopen
  | true =>
    have hhandle := handleResponse_deliverable hfound ⟨hsame.symm, hopen⟩ around
    cases houtcome : response.outcome with
    | error error =>
      rw [houtcome, apply_error] at hhandle
      exact .failure rfl hsame houtcome (by rw [hhandle]; rfl) (by rw [hhandle]; rfl)
    | ok result =>
      obtain ⟨file, hfile⟩ := Editor.isOpen_iff.1 hopen
      have hforgotten : (session.forget response.id).editor.file? request.fileId = some file :=
        hfile
      obtain ⟨happlied, -, hput⟩ := apply_lands hforgotten around request.fileName
        request.selectionRange result
      rw [houtcome] at hhandle
      exact .result rfl hsame houtcome hfile (by rw [hhandle, happlied]) (by rw [hhandle, hput])

/-- An expiry records every request that is too old by then. -/
theorem concludes_expiry {session : Session σ} {number : RequestId} {request : PendingRequest}
    (hfound : session.pending.find? number = some request) {around : Surroundings}
    (hstale : session.isStale around.now request = true) :
    session.Concludes number request (.expire around) :=
  .timeout (List.mem_filter.2 ⟨Entries.mem_of_find? hfound, hstale⟩) rfl

/-- A request that is pending is awaited. -/
theorem awaits_of_pending {session : Session σ} {number : RequestId} {request : PendingRequest}
    (hfound : session.pending.find? number = some request) : session.Awaits number request where
  pending := hfound
  response around response hid hsame := by
    subst hid
    exact concludes_response hfound hsame around
  expiry _ := concludes_expiry hfound

namespace Accounted

variable {session : Session σ} {history : History} {number : RequestId} {request : PendingRequest}

/-- A move that is no stray response leaves a request pending or concludes it. -/
theorem pending_or_concludes (h : session.Accounted history)
    (hfound : session.pending.find? number = some request) {move : Move σ}
    (hmove : ¬ move.IsStray number request) :
    (session.after move).pending.find? number = some request ∨
      session.Concludes number request move := by
  cases move with
  | format around scope id =>
    refine .inl ?_
    obtain ⟨file, options, worker, -, -, -, hformat⟩ | hnothing :=
      session.formatIn_cases around scope id
    · have hpending := Entries.mem_keys_iff_find?.2 ⟨_, hfound⟩
      have hother : number ≠ session.lastId + 1 := fun hnext => h.fresh (hnext ▸ hpending)
      rw [Session.after, hformat]
      exact (Entries.find?_put_of_ne _ _ hother).trans hfound
    · rw [Session.after, hnothing.pending]
      exact hfound
  | respond around response =>
    by_cases hid : response.id = number
    · subst hid
      -- The number is that of the request, so the file can only be its file too.
      have hsame : response.fileId = request.fileId :=
        Decidable.byContradiction fun hother => hmove ⟨rfl, hother⟩
      exact .inr (concludes_response hfound hsame around)
    · rw [Session.after, pending_handleResponse]
      exact .inl ((Entries.find?_remove_of_ne _ (Ne.symm hid)).trans hfound)
  | expire around =>
    cases hstale : session.isStale around.now request with
    | true => exact .inr (concludes_expiry hfound hstale)
    | false =>
      have hkept : (number, request) ∈ (session.after (.expire around)).pending :=
        List.mem_filter.2 ⟨Entries.mem_of_find? hfound, by simp [hstale]⟩
      exact .inl (Entries.find?_of_mem (h.after (.expire around)).nodup_pending hkept)
  | elsewhere store editor notifier worker => exact .inl hfound

/-- A request is awaited for as long as no stray response comes, unless a move concludes it. -/
theorem awaits_or_concluded (h : session.Accounted history)
    (hfound : session.pending.find? number = some request) {moves : List (Move σ)}
    (hmoves : ∀ move ∈ moves, ¬ move.IsStray number request) :
    (session.run moves).Awaits number request ∨
      ∃ before move later, moves = before ++ move :: later ∧
        (session.run before).Concludes number request move := by
  induction moves generalizing session history with
  | nil => exact .inl (awaits_of_pending hfound)
  | cons move later ih =>
    rcases h.pending_or_concludes hfound (hmoves move List.mem_cons_self) with hkept | hends
    · have hlater := fun next hnext => hmoves next (List.mem_cons_of_mem _ hnext)
      refine (ih (h.after move) hkept hlater).imp_right ?_
      rintro ⟨before, next, rest, hsplit, hends⟩
      exact ⟨move :: before, next, rest, congrArg (move :: ·) hsplit, hends⟩
    · exact .inr ⟨[], move, later, rfl, hends⟩

/-- Nothing comes of a request that counts as answered or given up. -/
theorem lost (h : session.Accounted history)
    (hsettled : number ∈ history.answered ++ history.expired) : session.Lost number where
  not_pending later := (h.settled_for_good hsettled later).1
  response later around response hid := by
    subst hid
    have hgone := (h.settled_for_good hsettled later).1
    exact handleResponse_unawaited (Entries.find?_eq_none_iff.2 hgone) around
  not_answered := h.not_answered_later hsettled
  not_expired later hagain :=
    (h.settled_for_good hsettled later).2 (List.mem_append_right _ hagain)
  not_edited later hedited :=
    h.not_answered_later hsettled later ((history_edited_sublist session later).subset hedited)

end Accounted

/-! ## Requests that are lost -/

/-- In every run a request that is pending stays so until a move concludes it, as long as no
response comes with its number for another file. Such a response is dropped, but takes the request
away: its own response is dropped as well from then on, and it is not recorded as given up. -/
theorem stray_response_takes_request (store : Store) (hasSideButtons : Bool) (format : Formatter σ)
    (worker : Worker σ) (timeout : Nat) (earlier : List (Move σ)) (response : WorkerResponse)
    (request : PendingRequest)
    (hpending : ((start store hasSideButtons format (.background worker) timeout).run
      earlier).pending.find? response.id = some request) :
    let session := (start store hasSideButtons format (.background worker) timeout).run earlier
    (∀ later : List (Move σ), (∀ move ∈ later, ¬ move.IsStray response.id request) →
      (session.run later).Awaits response.id request ∨
        ∃ before move rest, later = before ++ move :: rest ∧
          (session.run before).Concludes response.id request move) ∧
    (response.fileId ≠ request.fileId → ∀ around,
      session.handleResponse around response = (.dropped, session.forget response.id) ∧
        (session.forget response.id).Lost response.id) := by
  intro session
  have haccount : session.Accounted _ := .of_run rfl earlier
  refine ⟨fun later => haccount.awaits_or_concluded hpending, fun hother around => ?_⟩
  have hhandle : session.handleResponse around response = (.dropped, session.forget response.id) :=
    handleResponse_undeliverable hpending (fun hdeliver => hother hdeliver.1.symm) around
  have hanswered : response.id ∈ (session.turn (.respond around response)).answered :=
    mem_answered_respond.2 ⟨rfl, Entries.mem_keys_iff_find?.2 ⟨request, hpending⟩⟩
  have hforgotten : session.after (.respond around response) = session.forget response.id := by
    rw [Session.after, hhandle]
  have hlost : (session.after (.respond around response)).Lost response.id :=
    (haccount.after (.respond around response)).lost
      (List.mem_append_left _ (List.mem_append_right _ hanswered))
  exact ⟨hhandle, hforgotten ▸ hlost⟩

/-- What the worker might answer with the number of the first job, but for another file. -/
def strayed : WorkerResponse :=
  { tidied none with fileId := "other" }

/-- The only request that is pending is lost to a response for another file. -/
theorem stray_response_takes_only_request :
    let session := scratch.run [typing "one\ntwo", .format default .document "script"]
    ∃ request : PendingRequest,
      session.pending = [(strayed.id, request)] ∧ strayed.fileId ≠ request.fileId ∧
      session.Awaits strayed.id request ∧ (session.forget strayed.id).Lost strayed.id := by
  intro session
  have hpending : session.pending = [(strayed.id, ⟨"script", "script.js", none, 0⟩)] := by decide
  have hfound : session.pending.find? strayed.id = some ⟨"script", "script.js", none, 0⟩ := by
    rw [hpending]
    rfl
  have hother : strayed.fileId ≠ "script" := by decide
  obtain ⟨hawaits, hlost⟩ := stray_response_takes_request _ _ _ _ _
    [typing "one\ntwo", .format default .document "script"] strayed _ hfound
  refine ⟨_, hpending, hother, ?_, (hlost hother default).2⟩
  -- nothing has happened yet that could have concluded the request
  rcases hawaits [] (List.forall_mem_nil _) with hawaits | ⟨_, _, _, hsplit, _⟩
  · rwa [run, List.foldl_nil] at hawaits
  · exact absurd hsplit (by simp)

/-- A response with the number of a request, but for another file, changes nothing at all. -/
def IgnoresStrays (first : Session σ) : Prop :=
  ∀ (earlier : List (Move σ)) (around : Surroundings) (response : WorkerResponse)
    (request : PendingRequest),
    (first.run earlier).pending.find? response.id = some request →
    response.fileId ≠ request.fileId →
    (first.run earlier).handleResponse around response = (.dropped, first.run earlier)

/-- The request is taken from the table before its file is looked at. -/
theorem stray_response_is_not_ignored : ¬ scratch.IgnoresStrays := by
  intro h
  have hsame := h [typing "one\ntwo", .format default .document "script"] default strayed
    ⟨"script", "script.js", none, 0⟩ (by decide) (by decide)
  have hkept := congrArg (fun step => step.2.pending.keys) hsame
  revert hkept
  decide

end Session

end EditorFormat
