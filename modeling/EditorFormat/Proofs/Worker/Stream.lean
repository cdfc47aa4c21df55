import EditorFormat.Proofs.Worker.Answers

/-!
# The stream of responses

A worker runs beside the editor: requests are sent, the worker takes one, finishes it, and the
editor takes responses, in any order of these moves. The formatter is any function of its own state
and a request, and may fail or crash at any call. What is received so far is the beginning of one
reply for each request that was sent, in the order of the requests (`responses_stream`). The
invariant is `InOrder`: the requests that were sent are those that are answered, then the one that
is worked on, then those that wait.
-/

namespace EditorFormat

variable {σ : Type}

/-! ## Calls of a formatter -/

/-- One call of a formatter. -/
structure FormatCall where
  request : FormatRequest
  reaction : Reaction

namespace Formatter

/-- A formatter that keeps a list of its calls beside its own state. -/
def watched (format : Formatter σ) : Formatter (σ × List FormatCall) :=
  fun state request =>
    let (reaction, next) := format state.1 request
    (reaction, next, state.2 ++ [⟨request, reaction⟩])

/-- The state of a formatter after calls. -/
def after (format : Formatter σ) (state : σ) (requests : List FormatRequest) : σ :=
  requests.foldl (fun state request => (format state request).2) state

/-- The calls of a formatter that is handed requests one after the other. -/
def calls (format : Formatter σ) : σ → List FormatRequest → List FormatCall
  | _, [] => []
  | state, request :: later =>
    let (reaction, next) := format state request
    ⟨request, reaction⟩ :: calls format next later

section Calls

variable (format : Formatter σ) (state : σ)

/-- Later calls start from the state that earlier calls leave. -/
theorem calls_append (earlier later : List FormatRequest) :
    format.calls state (earlier ++ later) =
      format.calls state earlier ++ format.calls (format.after state earlier) later := by
  induction earlier generalizing state with
  | nil => rfl
  | cons request earlier ih => exact congrArg (_ :: ·) (ih _)

/-- Later requests are handed to the state that earlier ones leave. -/
theorem after_append (earlier later : List FormatRequest) :
    format.after state (earlier ++ later) = format.after (format.after state earlier) later :=
  List.foldl_append

/-- There is one call for each request, in their order. -/
@[simp] theorem map_request_calls (requests : List FormatRequest) :
    (format.calls state requests).map FormatCall.request = requests := by
  induction requests generalizing state with
  | nil => rfl
  | cons request later ih => exact congrArg (request :: ·) (ih _)

/-- There are as many calls as requests. -/
@[simp] theorem length_calls (requests : List FormatRequest) :
    (format.calls state requests).length = requests.length := by
  rw [← List.length_map FormatCall.request, map_request_calls]

/-- A call tells what the formatter does in the state that the earlier calls leave. -/
theorem getElem?_calls (requests : List FormatRequest) (index : Nat) :
    (format.calls state requests)[index]? = requests[index]?.map fun request =>
      ⟨request, (format (format.after state (requests.take index)) request).1⟩ := by
  induction requests generalizing state index with
  | nil => rfl
  | cons request later ih =>
    cases index with
    | zero => rfl
    | succ index => exact ih _ index

end Calls

/-- Two formatters whose states go on alike reach the same state. -/
theorem after_congr {format other : Formatter σ}
    (h : ∀ state request, (other state request).2 = (format state request).2)
    (state : σ) (requests : List FormatRequest) :
    other.after state requests = format.after state requests := by
  have hstep : (fun state request => (other state request).2) =
      fun state request => (format state request).2 := funext fun state => funext (h state)
  rw [after, after, hstep]

end Formatter

/-- The reply to a request when the formatter reacts to it. -/
def WorkerRequest.reply (message : WorkerRequest) (call : FormatCall) : WorkerResponse :=
  message.envelope.respond call.reaction.outcome

/-- The replies to requests when one formatter is handed one after the other. -/
def Formatter.replies (format : Formatter σ) (state : σ) (sent : List WorkerRequest) :
    List WorkerResponse :=
  List.zipWith WorkerRequest.reply sent (format.calls state (sent.map WorkerRequest.request))

section Replies

variable (format : Formatter σ) (state : σ)

/-- There is one reply for each request. -/
@[simp] theorem Formatter.length_replies (sent : List WorkerRequest) :
    (format.replies state sent).length = sent.length := by
  simp [Formatter.replies]

/-- Later replies start from the state that earlier requests leave. -/
theorem Formatter.replies_append (earlier later : List WorkerRequest) :
    format.replies state (earlier ++ later) = format.replies state earlier ++
      format.replies (format.after state (earlier.map WorkerRequest.request)) later := by
  rw [Formatter.replies, List.map_append, Formatter.calls_append]
  exact List.zipWith_append (by simp)

/-- A reply is made from its own request and the formatter's reaction to it. -/
theorem Formatter.getElem?_replies (sent : List WorkerRequest) (index : Nat) :
    (format.replies state sent)[index]? = sent[index]?.map fun message =>
      message.reply ⟨message.request, (format (format.after state
        ((sent.take index).map WorkerRequest.request)) message.request).1⟩ := by
  rw [Formatter.replies, List.getElem?_zipWith, Formatter.getElem?_calls, List.getElem?_map,
    List.map_take]
  cases sent[index]? <;> rfl

end Replies

namespace Worker

/-! ## Moves -/

/-- A worker at work, with all that was sent to it and received from it. -/
structure Traffic (σ : Type) where
  worker : Worker σ
  /-- The request that the worker has taken from its queue and works on. -/
  running : Option WorkerRequest
  sent : List WorkerRequest
  received : List WorkerResponse

/-- What can happen next. -/
inductive Move where
  /-- The editor sends a request. -/
  | sends (request : WorkerRequest)
  /-- The worker takes the oldest request from its queue, if it has none to work on. -/
  | takes
  /-- The worker finishes the request that it works on. -/
  | finishes
  /-- The editor takes the oldest response. -/
  | receives

/-- The request that is sent. -/
def Move.request? : Move → Option WorkerRequest
  | .sends request => some request
  | _ => none

namespace Traffic

/-- A worker that has just been started. -/
def start (formatter : σ) : Traffic σ :=
  ⟨.start formatter, none, [], []⟩

/-- The traffic after a move. A request that is finished is answered as the head of the queue. -/
def after (format : Formatter σ) (traffic : Traffic σ) : Move → Traffic σ
  | .sends request =>
    match traffic.worker.send? request with
    | none => traffic
    | some worker => { traffic with worker, sent := traffic.sent ++ [request] }
  | .takes =>
    match traffic.running, traffic.worker.requests with
    | none, request :: later =>
      { traffic with worker := { traffic.worker with requests := later }, running := some request }
    | _, _ => traffic
  | .finishes =>
    match traffic.running with
    | none => traffic
    | some request =>
      let worker := { traffic.worker with requests := request :: traffic.worker.requests }
      { traffic with worker := worker.step format, running := none }
  | .receives =>
    match traffic.worker.receive? with
    | none => traffic
    | some (response, worker) =>
      { traffic with worker, received := traffic.received ++ [response] }

/-- The traffic after moves. -/
def run (format : Formatter σ) (traffic : Traffic σ) (moves : List Move) : Traffic σ :=
  moves.foldl (after format) traffic

/-- The calls of a watched formatter so far. -/
def calls (traffic : Traffic (σ × List FormatCall)) : List FormatCall :=
  traffic.worker.formatter.2

/-- A request that is taken and finished at once is a step of the worker. -/
theorem step_of_finishes (format : Formatter σ) (traffic : Traffic σ) (h : traffic.running = none) :
    (traffic.run format [.takes, .finishes]).worker = traffic.worker.step format := by
  show ((traffic.after format .takes).after format .finishes).worker = _
  cases hqueue : traffic.worker.requests with
  | nil => simp [after, h, hqueue, step]
  | cons request later => simp [after, h, hqueue, step]

/-- A finished request is answered by one call of the formatter. -/
theorem after_finishes {format : Formatter σ} {traffic : Traffic (σ × List FormatCall)}
    {message : WorkerRequest} (h : traffic.running = some message) :
    let state := traffic.worker.formatter.1
    let call : FormatCall := ⟨message.request, (format state message.request).1⟩
    traffic.after format.watched .finishes =
      { traffic with
        worker := { traffic.worker with
          responses := traffic.worker.responses ++ [message.reply call]
          formatter := ((format state message.request).2, traffic.calls ++ [call]) }
        running := none } := by
  simp only [after, h]
  rfl

end Traffic

/-! ## The order of the queues -/

/-- The traffic of a worker that has answered given requests: all that was sent is answered, worked
on or waiting, in this order, and the formatter was called for the answered requests only. -/
structure InOrder (format : Formatter σ) (state : σ) (answered : List WorkerRequest)
    (traffic : Traffic (σ × List FormatCall)) : Prop where
  isRunning : traffic.worker.isRunning = true
  sent : traffic.sent = answered ++ (traffic.running.toList ++ traffic.worker.requests)
  replied : traffic.received ++ traffic.worker.responses = format.replies state answered
  formatter : traffic.worker.formatter =
    (format.after state (answered.map WorkerRequest.request),
      format.calls state (answered.map WorkerRequest.request))

section Order

variable {format : Formatter σ} {state : σ} {answered : List WorkerRequest}
  {traffic : Traffic (σ × List FormatCall)}

/-- Nothing is answered at the start. -/
theorem InOrder.start (format : Formatter σ) (state : σ) :
    InOrder format state [] (.start (state, [])) :=
  ⟨rfl, rfl, rfl, rfl⟩

/-- A finished request is answered behind the others. -/
theorem InOrder.finish (h : InOrder format state answered traffic) {message : WorkerRequest}
    (hrunning : traffic.running = some message) :
    InOrder format state (answered ++ [message]) (traffic.after format.watched .finishes) := by
  have hsent := h.sent
  rw [hrunning] at hsent
  -- the call starts from the state that the answered requests leave
  rw [Traffic.after_finishes hrunning, Traffic.calls, h.formatter]
  refine ⟨h.isRunning, ?_, ?_, ?_⟩
  · simpa using hsent
  · rw [Formatter.replies_append, ← h.replied, List.append_assoc]
    rfl
  · rw [List.map_append, Formatter.calls_append, Formatter.after_append]
    rfl

/-- A move keeps the order. -/
theorem InOrder.move (h : InOrder format state answered traffic) (move : Move) :
    ∃ answered, InOrder format state answered (traffic.after format.watched move) := by
  cases move with
  | sends request =>
    have hsends : traffic.worker.send? request =
        some { traffic.worker with requests := traffic.worker.requests ++ [request] } :=
      if_pos h.isRunning
    refine ⟨answered, ?_⟩
    rw [Traffic.after, hsends]
    exact ⟨h.isRunning, by simp [h.sent], h.replied, h.formatter⟩
  | takes =>
    refine ⟨answered, ?_⟩
    cases hrunning : traffic.running with
    | some message => simpa [Traffic.after, hrunning] using h
    | none =>
      cases hqueue : traffic.worker.requests with
      | nil => simpa [Traffic.after, hrunning, hqueue] using h
      | cons message later =>
        have hsent := h.sent
        rw [hrunning, hqueue] at hsent
        simp only [Traffic.after, hrunning, hqueue]
        exact ⟨h.isRunning, hsent, h.replied, h.formatter⟩
  | finishes =>
    cases hrunning : traffic.running with
    | none => exact ⟨answered, by simpa [Traffic.after, hrunning] using h⟩
    | some message => exact ⟨answered ++ [message], h.finish hrunning⟩
  | receives =>
    refine ⟨answered, ?_⟩
    cases hresponses : traffic.worker.responses with
    | nil => simpa [Traffic.after, receive?, hresponses] using h
    | cons response later =>
      have hreplied := h.replied
      rw [hresponses] at hreplied
      simp only [Traffic.after, receive?, hresponses]
      exact ⟨h.isRunning, h.sent, by simpa using hreplied, h.formatter⟩

/-- Moves keep the order. -/
theorem InOrder.run (h : InOrder format state answered traffic) (moves : List Move) :
    ∃ answered, InOrder format state answered (traffic.run format.watched moves) := by
  induction moves generalizing answered traffic with
  | nil => exact ⟨answered, h⟩
  | cons move later ih =>
    obtain ⟨answered, hmove⟩ := h.move move
    exact ih hmove

/-- Every request that is sent is accepted. -/
theorem InOrder.sent_run (h : InOrder format state answered traffic) (moves : List Move) :
    (traffic.run format.watched moves).sent = traffic.sent ++ moves.filterMap Move.request? := by
  induction moves generalizing answered traffic with
  | nil => exact (List.append_nil _).symm
  | cons move later ih =>
    obtain ⟨answered, hmove⟩ := h.move move
    have hsent : (traffic.after format.watched move).sent =
        traffic.sent ++ move.request?.toList := by
      cases move with
      | sends request => simp [Traffic.after, send?, h.isRunning, Move.request?]
      | takes =>
        rw [Traffic.after]
        split <;> exact (List.append_nil _).symm
      | finishes =>
        rw [Traffic.after]
        split <;> exact (List.append_nil _).symm
      | receives =>
        rw [Traffic.after]
        split <;> exact (List.append_nil _).symm
    refine (ih hmove).trans ?_
    rw [hsent, List.append_assoc, List.filterMap_cons]
    cases move.request? <;> rfl

/-- What is received is the beginning of the replies to what was sent. -/
theorem InOrder.received (h : InOrder format state answered traffic) :
    traffic.received <+: format.replies state traffic.sent := by
  rw [h.sent, Formatter.replies_append, ← h.replied, List.append_assoc]
  exact List.prefix_append _ _

/-- As many requests are answered as there are responses. -/
theorem InOrder.length_answered (h : InOrder format state answered traffic) :
    answered.length = traffic.received.length + traffic.worker.responses.length := by
  rw [← List.length_append, h.replied, Formatter.length_replies]

/-- The formatter was called for the requests that are answered. -/
theorem InOrder.calls (h : InOrder format state answered traffic) :
    traffic.calls = format.calls state ((traffic.sent.take
      (traffic.received.length + traffic.worker.responses.length)).map WorkerRequest.request) := by
  rw [← h.length_answered, h.sent, List.take_left, Traffic.calls, h.formatter]

/-- When everything is received, the formatter was called for everything. -/
theorem InOrder.eq_of_length (h : InOrder format state answered traffic)
    (hlength : traffic.sent.length ≤ traffic.received.length) :
    traffic.received = format.replies state traffic.sent ∧
      traffic.calls = format.calls state (traffic.sent.map WorkerRequest.request) := by
  constructor
  · refine h.received.eq_of_length_le ?_
    rw [Formatter.length_replies]
    exact hlength
  · rw [h.calls, List.take_of_length_le (Nat.le_trans hlength (Nat.le_add_right ..))]

end Order

/-! ## Everything is answered in the end -/

section Rounds

variable {format : Formatter σ} {state : σ} {answered : List WorkerRequest}
  {traffic : Traffic (σ × List FormatCall)}

/-- A worker that has nothing to work on, though it could take a request, has no request. -/
theorem Traffic.takes_idle {format : Formatter σ} {traffic : Traffic σ}
    (h : (traffic.after format .takes).running = none) :
    (traffic.after format .takes).worker.requests = [] := by
  rw [after] at h ⊢
  cases hrunning : traffic.running with
  | some message => simp [hrunning] at h
  | none =>
    cases hqueue : traffic.worker.requests with
    | nil => simpa [hrunning] using hqueue
    | cons message later => simp [hrunning, hqueue] at h

/-- A worker that works on nothing finishes nothing. -/
theorem Traffic.finishes_idle {format : Formatter σ} {traffic : Traffic σ}
    (h : traffic.running = none) : traffic.after format .finishes = traffic := by
  rw [after, h]

/-- Only the editor receives. -/
theorem Traffic.received_takes (format : Formatter σ) (traffic : Traffic σ) :
    (traffic.after format .takes).received = traffic.received := by
  rw [after]
  split <;> rfl

/-- A response is received if there is one. -/
theorem Traffic.length_receives (format : Formatter σ) (traffic : Traffic σ) :
    (traffic.after format .receives).received.length =
      traffic.received.length + min 1 traffic.worker.responses.length := by
  cases hresponses : traffic.worker.responses with
  | nil => simp [after, receive?, hresponses]
  | cons response later => simp [after, receive?, hresponses]

/-- The moves that answer one request. -/
def Move.round : List Move :=
  [.takes, .finishes, .receives]

/-- After a round one more response is received, unless all are. -/
theorem InOrder.round (h : InOrder format state answered traffic) :
    min traffic.sent.length (traffic.received.length + 1) ≤
      (traffic.run format.watched Move.round).received.length := by
  obtain ⟨answered, htakes⟩ := h.move .takes
  have hsame := Traffic.received_takes format.watched traffic
  have hsent : (traffic.after format.watched .takes).sent = traffic.sent :=
    (h.sent_run [.takes]).trans (List.append_nil _)
  show _ ≤ (((traffic.after format.watched .takes).after format.watched .finishes).after
    format.watched .receives).received.length
  rw [Traffic.length_receives]
  cases hrunning : (traffic.after format.watched .takes).running with
  | some message =>
    rw [Traffic.after_finishes hrunning, hsame, List.length_append, List.length_singleton]
    omega
  | none =>
    -- nothing is worked on, so all that was sent is answered
    have hall : traffic.sent.length = answered.length := by
      rw [← hsent, htakes.sent, hrunning, Traffic.takes_idle hrunning]
      simp
    have hlength := htakes.length_answered
    rw [hsame] at hlength
    rw [Traffic.finishes_idle hrunning, hsame]
    omega

/-- After enough rounds everything is received. -/
theorem InOrder.rounds (h : InOrder format state answered traffic) {count : Nat}
    (hcount : traffic.sent.length ≤ traffic.received.length + count) :
    let finished := traffic.run format.watched (List.replicate count Move.round).flatten
    finished.received = format.replies state traffic.sent ∧
      finished.calls = format.calls state (traffic.sent.map WorkerRequest.request) := by
  induction count generalizing answered traffic with
  | zero => exact h.eq_of_length hcount
  | succ count ih =>
    have hround := h.round
    have hsent : (traffic.run format.watched Move.round).sent = traffic.sent :=
      (h.sent_run Move.round).trans (List.append_nil _)
    obtain ⟨answered, hnext⟩ := h.run Move.round
    have hfinished := ih hnext (by rw [hsent]; omega)
    rwa [hsent] at hfinished

end Rounds

/-! ## Other formatters -/

/-- Two workers with formatters of their own are equally far. -/
structure Alike (traffic other : Traffic σ) : Prop where
  isRunning : other.worker.isRunning = traffic.worker.isRunning
  requests : other.worker.requests = traffic.worker.requests
  running : other.running = traffic.running
  responses : other.worker.responses.length = traffic.worker.responses.length
  received : other.received.length = traffic.received.length

section Others

variable {traffic other : Traffic σ}

/-- How far a worker gets with a move does not depend on its formatter. -/
theorem Alike.move (h : Alike traffic other) (format otherFormat : Formatter σ) (move : Move) :
    Alike (traffic.after format move) (other.after otherFormat move) := by
  obtain ⟨hisRunning, hrequests, hrunning, hresponses, hreceived⟩ := h
  cases move with
  | sends request =>
    cases hrun : traffic.worker.isRunning <;>
      simp only [Traffic.after, send?, hisRunning, hrun, if_true, Bool.false_eq_true, if_false]
    · exact ⟨hisRunning, hrequests, hrunning, hresponses, hreceived⟩
    · exact ⟨rfl, by rw [hrequests], hrunning, hresponses, hreceived⟩
  | takes =>
    rw [Traffic.after, Traffic.after, hrunning, hrequests]
    split
    · exact ⟨hisRunning, rfl, rfl, hresponses, hreceived⟩
    · exact ⟨hisRunning, hrequests, hrunning, hresponses, hreceived⟩
  | finishes =>
    rw [Traffic.after, Traffic.after, hrunning]
    split
    · exact ⟨hisRunning, hrequests, hrunning, hresponses, hreceived⟩
    · exact ⟨hisRunning, hrequests, rfl, by simp [step, hresponses], hreceived⟩
  | receives =>
    -- a response waits for both or for neither
    cases hone : traffic.worker.responses with
    | nil =>
      rw [hone, List.length_nil, List.length_eq_zero_iff] at hresponses
      simp only [Traffic.after, receive?, hone, hresponses]
      exact ⟨hisRunning, hrequests, hrunning, by rw [hone, hresponses], hreceived⟩
    | cons response later =>
      rw [hone] at hresponses
      obtain ⟨otherResponse, otherLater, hother⟩ := List.exists_cons_of_length_eq_add_one hresponses
      rw [hother] at hresponses
      simp only [Traffic.after, receive?, hone, hother]
      exact ⟨hisRunning, hrequests, hrunning, Nat.succ.inj hresponses, by simp [hreceived]⟩

/-- How far a worker gets does not depend on its formatter. -/
theorem Alike.run (h : Alike traffic other) (format otherFormat : Formatter σ) (moves : List Move) :
    Alike (traffic.run format moves) (other.run otherFormat moves) := by
  induction moves generalizing traffic other with
  | nil => exact h
  | cons move later ih => exact ih (h.move format otherFormat move)

end Others

/-! ## The stream -/

/-- A response belongs to a request and to the formatter's reaction. -/
structure Echoes (message : WorkerRequest) (call : FormatCall) (response : WorkerResponse) :
    Prop where
  request : call.request = message.request
  id : response.id = message.id
  fileId : response.fileId = message.fileId
  isSelection : response.isSelection = message.isSelection
  selectionRange : response.selectionRange = message.selectionRange
  outcome : response.outcome = call.reaction.outcome.mapError EngineError.info
  crash : call.reaction = .crashed → response.outcome =
    .error ⟨"invalid formatter response: formatter panicked", some "ProtocolError"⟩

/-- A reply belongs to its request. -/
theorem echoes_reply {message : WorkerRequest} {call : FormatCall}
    (h : call.request = message.request) : Echoes message call (message.reply call) where
  request := h
  id := rfl
  fileId := rfl
  isSelection := rfl
  selectionRange := rfl
  outcome := WorkerResponse.outcome_respond ..
  crash hcrash := by
    rw [WorkerRequest.reply, WorkerResponse.outcome_respond, hcrash]
    rfl

/-- What is received of a worker to which requests were sent. -/
structure Streamed (format : Formatter σ) (state : σ) (sent : List WorkerRequest)
    (traffic : Traffic (σ × List FormatCall)) : Prop where
  /-- Every request is accepted. -/
  accepted : traffic.sent = sent
  /-- There is one reply for each request. -/
  length : (format.replies state sent).length = sent.length
  /-- The replies are received in the order of the requests. -/
  received : traffic.received <+: format.replies state sent
  /-- The formatter was called once for each request that has a response, in their order. -/
  calls : traffic.calls = format.calls state ((sent.take
    (traffic.received.length + traffic.worker.responses.length)).map WorkerRequest.request)
  /-- Each response is for its request and tells what the formatter did. -/
  echoes : ∀ (index : Nat) (message : WorkerRequest) (response : WorkerResponse),
    sent[index]? = some message → traffic.received[index]? = some response →
    ∃ call, traffic.calls[index]? = some call ∧ Echoes message call response

section Order

variable {format : Formatter σ} {state : σ} {answered : List WorkerRequest}
  {traffic : Traffic (σ × List FormatCall)}

/-- What is received at an index is the reply to the request at this index. -/
theorem InOrder.getElem?_received (h : InOrder format state answered traffic) (index : Nat) :
    traffic.received[index]? =
      if index < traffic.received.length then (format.replies state traffic.sent)[index]?
      else none := by
  rw [← List.getElem?_take, ← List.prefix_iff_eq_take.1 h.received]

/-- Requests that are answered in order are streamed. -/
theorem InOrder.streamed (h : InOrder format state answered traffic) :
    Streamed format state traffic.sent traffic where
  accepted := rfl
  length := Formatter.length_replies ..
  received := h.received
  calls := h.calls
  echoes index message response hmessage hresponse := by
    have hindex : index < traffic.received.length := (List.getElem?_eq_some_iff.1 hresponse).1
    rw [h.getElem?_received, if_pos hindex, Formatter.getElem?_replies, hmessage] at hresponse
    have hcall : traffic.calls[index]? = some ⟨message.request, (format (format.after state
        ((traffic.sent.take index).map WorkerRequest.request)) message.request).1⟩ := by
      rw [h.calls, Formatter.getElem?_calls, List.getElem?_map, List.getElem?_take,
        if_pos (Nat.lt_add_right _ hindex), hmessage, ← List.map_take, List.take_take,
        Nat.min_eq_left (Nat.le_of_lt (Nat.lt_add_right _ hindex))]
      rfl
    exact ⟨_, hcall, Option.some.inj hresponse ▸ echoes_reply rfl⟩

end Order

/-- What is received so far is the beginning of one reply for each request, in order, which tells
what the formatter did with this request and does not depend on how others end; and all replies are
received in the end. -/
theorem responses_stream (format : Formatter σ) (state : σ) (moves : List Move) :
    let start : Traffic (σ × List FormatCall) := .start (state, [])
    let traffic := start.run format.watched moves
    let sent := moves.filterMap Move.request?
    Streamed format state sent traffic ∧
    (∀ other : Formatter σ,
      (∀ state request, (other state request).2 = (format state request).2) →
      ∀ index message, sent[index]? = some message →
      let met := format.after state ((sent.take index).map WorkerRequest.request)
      (other met message.request).1 = (format met message.request).1 →
      (start.run other.watched moves).received[index]? = traffic.received[index]?) ∧
    ∀ count, sent.length ≤ count →
      let finished := traffic.run format.watched (List.replicate count Move.round).flatten
      finished.received = format.replies state sent ∧
      finished.calls = format.calls state (sent.map WorkerRequest.request) := by
  intro start traffic sent
  have hsent (format : Formatter σ) : (start.run format.watched moves).sent = sent :=
    (InOrder.start format state).sent_run moves
  obtain ⟨answered, horder⟩ := (InOrder.start format state).run moves
  have hsame : traffic.sent = sent := hsent format
  refine ⟨hsame ▸ horder.streamed, ?_, ?_⟩
  · -- both runs have received as many responses, and each is the reply at its index
    intro other hstate index message hmessage met hmet
    obtain ⟨otherAnswered, hother⟩ := (InOrder.start other state).run moves
    have hfar : Alike traffic (start.run other.watched moves) :=
      Alike.run ⟨rfl, rfl, rfl, rfl, rfl⟩ format.watched other.watched moves
    rw [hother.getElem?_received, horder.getElem?_received, hsent other, hsent format,
      hfar.received, Formatter.getElem?_replies, Formatter.getElem?_replies, hmessage,
      Formatter.after_congr hstate, Option.map_some, Option.map_some, hmet]
  · intro count hcount
    rw [← hsame]
    exact horder.rounds (hsame ▸ Nat.le_add_left_of_le hcount)

/-- A formatter that counts its calls, and crashes at some of them or at none. -/
def counting (crashes : Bool) : Formatter Nat :=
  fun count request =>
    (if crashes ∧ request.code = "panic" then .crashed
      else .returned (.withCursor request.code count), count + 1)

/-- A crash leaves the response to a request behind it alone, which is sent meanwhile. -/
theorem responses_stream_crash :
    let message (id : Nat) (code : String) : WorkerRequest := ⟨id, "f", code, default, false, none⟩
    let moves : List Move := [.sends (message 1 "panic"), .takes, .sends (message 2 "b"), .finishes,
      .receives, .takes, .finishes, .receives]
    let received (crashes : Bool) : List WorkerResponse :=
      ((Traffic.start (0, [])).run (counting crashes).watched moves).received
    (received true)[0]? = some ⟨1, "f", "code format", none,
      some ⟨"invalid formatter response: formatter panicked", some "ProtocolError"⟩, false, none⟩ ∧
    (received true)[1]? = some ⟨2, "f", "code format", some (.withCursor "b" 1), none, false, none⟩ ∧
    (received false)[1]? = (received true)[1]? := by
  intro message moves received
  obtain ⟨-, hother, -⟩ := responses_stream (counting true) 0 moves
  exact ⟨rfl, rfl, hother (counting false) (fun _ _ => rfl) 1 (message 2 "b") rfl rfl⟩

end Worker

end EditorFormat
