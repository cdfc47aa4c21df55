import EditorFormat.Config.Format
import EditorFormat.Decimal.Single
import EditorFormat.Editor.Basic
import EditorFormat.Editor.Notifier
import EditorFormat.Log.ErrorLog
import EditorFormat.Settings.Store
import EditorFormat.Worker.Queue

/-!
# Sessions

A session is what lasts from the start of the editor to its end: the settings, the editor with its
open files, what the user was shown, the error log, and the format requests that are under way. The
formatter runs in place, or in a background worker whose responses are matched with their requests
by number.
-/

namespace EditorFormat

open Files (FileSystem)

/-- What a session finds around it when something is done: the files on disk, the words for what is
wrong with them, the time in nanoseconds, and the date that the wall clock shows at a time. -/
structure Surroundings where
  files : FileSystem
  words : Config.Wording
  now : Nat
  calendar : Nat → Stamp
deriving Inhabited

/-- The stamp of what is recorded now. -/
def Surroundings.stamp (around : Surroundings) : Stamp :=
  around.calendar around.now

/-- The surroundings with a clock that is ahead of time. The date is not. -/
def Surroundings.ahead (around : Surroundings) (duration : Nat) : Surroundings :=
  { around with now := around.now + duration, calendar := fun _ => around.stamp }

/-- Where the formatter runs, with its state. -/
inductive Mode (σ : Type) where
  | inline (formatter : σ)
  | background (worker : Worker σ)
deriving Inhabited

/-- A request that was sent to the worker and is not yet answered. -/
structure PendingRequest where
  fileId : FileId
  fileName : String
  selectionRange : Option Span
  /-- The time at which it was sent. -/
  issuedAt : Nat
deriving DecidableEq, Repr, Inhabited

/-- What is to be formatted, and with what options. -/
structure Job where
  fileId : FileId
  fileName : String
  code : String
  options : CursorOptions
  /-- The lines to be replaced; the whole document when there are none. -/
  selectionRange : Option Span
deriving Inhabited

/-- What became of a format command or of a response. -/
inductive Disposition where
  /-- The request was sent to the worker. -/
  | queued (id : RequestId)
  /-- The result was put into the document. -/
  | applied
  /-- The failure was put into the log. -/
  | failed
  /-- Nothing was done: the file is not open, or the response is not awaited. -/
  | dropped
deriving DecidableEq, Repr, Inhabited

/-- A session with a formatter whose state is of type `σ`. -/
structure Session (σ : Type) where
  store : Store
  editor : Editor
  notifier : Notifier
  log : ErrorLog
  format : Formatter σ
  mode : Mode σ
  /-- The requests that wait for a response. -/
  pending : Entries RequestId PendingRequest
  /-- The number of the latest request. -/
  lastId : RequestId
  /-- The age in nanoseconds at which a request is given up. -/
  timeout : Nat

/-- The age at which a request is given up, unless it was set: ten seconds. -/
def defaultTimeout : Nat := 10 * Decimal.nanosPerSecond

namespace Session

variable {σ : Type}

/-- The settings now. -/
def settings (session : Session σ) : Settings :=
  session.store.current

/-- Whether the formatter runs in a background worker. -/
def isBackground (session : Session σ) : Bool :=
  session.mode matches .background _

/-- The responses that wait to be handled, the oldest first. -/
def responses (session : Session σ) : List WorkerResponse :=
  match session.mode with
  | .inline _ => []
  | .background worker => worker.responses

/-- The session with other responses waiting. -/
def withResponses (session : Session σ) (responses : List WorkerResponse) : Session σ :=
  match session.mode with
  | .inline _ => session
  | .background worker => { session with mode := .background { worker with responses } }

/-- Let the worker answer up to `count` requests. -/
def work (session : Session σ) (count : Nat) : Session σ :=
  match session.mode with
  | .inline _ => session
  | .background worker =>
    { session with mode := .background (worker.steps session.format count) }

/-- Stop the worker after it has answered all requests. -/
def shutdown (session : Session σ) : Session σ :=
  match session.mode with
  | .inline _ => session
  | .background worker =>
    { session with mode := .background (worker.shutdown session.format) }

/-- Record a failure and tell the user. -/
def fail (session : Session σ) (entry : LogEntry) : Disposition × Session σ :=
  (.failed,
    { session with
      log := session.log.record entry
      notifier := session.notifier.surface session.settings.opensLogOnError })

/-- Remove the log entries of a file. The side button goes with the last entry. -/
def clearErrors (session : Session σ) (file : FileId) : Session σ :=
  let log := session.log.clear file
  let notifier :=
    if session.log.hasErrorsFor file && !log.hasErrors then
      session.notifier.post (.sideButton false)
    else session.notifier
  { session with log, notifier }

end Session

end EditorFormat
