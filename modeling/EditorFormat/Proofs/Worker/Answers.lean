import EditorFormat.Worker.Queue

/-!
# The answers of a worker

A worker that works through its queue answers every request once and in order (`steps_recording`).
The formatter is any function of requests, and keeps what it was asked, so the theorem says also
what the formatter was handed. A response brings the outcome of its request back unchanged.
-/

namespace EditorFormat

/-- A reaction with a given outcome. -/
def Reaction.ofOutcome : Outcome → Reaction
  | .ok result => .returned result
  | .error error => .failed error

/-- A caller sees the outcome. -/
@[simp] theorem Reaction.outcome_ofOutcome (outcome : Outcome) :
    (Reaction.ofOutcome outcome).outcome = outcome := by
  cases outcome <;> rfl

/-- A formatter that answers each request on its own, without a crash. Its state is the list of
requests that it was handed. -/
def Formatter.recording (answer : FormatRequest → Outcome) : Formatter (List FormatRequest) :=
  fun seen request => (.ofOutcome (answer request), seen ++ [request])

namespace WorkerResponse

/-- A response brings the outcome back, with the error as it is passed on. -/
@[simp] theorem outcome_respond (envelope : Envelope) (outcome : Outcome) :
    (envelope.respond outcome).outcome = outcome.mapError EngineError.info := by
  cases outcome <;> rfl

end WorkerResponse

namespace Worker

/-- The response to a request. -/
def answered (answer : FormatRequest → Outcome) (message : WorkerRequest) : WorkerResponse :=
  message.envelope.respond (answer message.request)

/-- A worker that works through its queue answers every request once, in the order of the queue, and
hands the formatter exactly these requests. -/
theorem steps_recording (answer : FormatRequest → Outcome) (requests : List WorkerRequest)
    (responses : List WorkerResponse) (isRunning : Bool) (seen : List FormatRequest) :
    steps (.recording answer) requests.length ⟨requests, responses, isRunning, seen⟩ =
      ⟨[], responses ++ requests.map (answered answer), isRunning,
        seen ++ requests.map WorkerRequest.request⟩ := by
  induction requests generalizing responses seen with
  | nil => simp [steps]
  | cons message later ih =>
    have hstep : step (.recording answer) ⟨message :: later, responses, isRunning, seen⟩ =
        ⟨later, responses ++ [answered answer message], isRunning, seen ++ [message.request]⟩ := by
      simp [step, Formatter.recording, answered]
    rw [List.length_cons, steps, hstep, ih, List.append_assoc, List.append_assoc, List.map_cons,
      List.map_cons, List.singleton_append, List.singleton_append]

end Worker

end EditorFormat
