import EditorFormat.Worker.Message

/-!
# The background worker

A worker answers the requests of its queue one by one, in their order, and puts the responses into
a second queue. A request on which the formatter fails or crashes is answered like any other. When
the worker is stopped it takes no further requests.
-/

namespace EditorFormat

variable {σ : Type}

/-- A worker with a formatter whose state is of type `σ`. -/
structure Worker (σ : Type) where
  /-- Requests that wait for the formatter, the oldest first. -/
  requests : List WorkerRequest
  /-- Responses that wait for the editor, the oldest first. -/
  responses : List WorkerResponse
  isRunning : Bool
  formatter : σ
deriving Inhabited

namespace Worker

/-- What a request is told that cannot reach the worker. -/
def closedMessage : String :=
  "format worker is no longer running"

/-- A running worker with nothing to do. -/
def start (formatter : σ) : Worker σ :=
  ⟨[], [], true, formatter⟩

/-- Queue a request, unless the worker was stopped. -/
def send? (worker : Worker σ) (request : WorkerRequest) : Option (Worker σ) :=
  if worker.isRunning then some { worker with requests := worker.requests ++ [request] } else none

/-- Answer the oldest request, if there is one. -/
def step (format : Formatter σ) (worker : Worker σ) : Worker σ :=
  match worker.requests with
  | [] => worker
  | request :: later =>
    let (reaction, formatter) := format worker.formatter request.request
    { worker with
      requests := later
      responses := worker.responses ++ [request.envelope.respond reaction.outcome]
      formatter }

/-- Answer up to `count` requests. -/
def steps (format : Formatter σ) : Nat → Worker σ → Worker σ
  | 0, worker => worker
  | count + 1, worker => steps format count (worker.step format)

/-- Take the oldest response, if there is one. -/
def receive? (worker : Worker σ) : Option (WorkerResponse × Worker σ) :=
  match worker.responses with
  | [] => none
  | response :: later => some (response, { worker with responses := later })

/-- Stop the worker. It still answers the requests that were queued. -/
def shutdown (format : Formatter σ) (worker : Worker σ) : Worker σ :=
  { worker.steps format worker.requests.length with isRunning := false }

end Worker

end EditorFormat
