import EditorFormat.Log.SourceLocation
import EditorFormat.Log.Stamp
import EditorFormat.Worker.Message

/-!
# The error log

The log keeps the latest failures, newest first. An old entry gives way to a new one when the log
is full, and all entries of a file go when the file is formatted well or removed.
-/

namespace EditorFormat

/-- What went wrong. -/
inductive LogKind where
  /-- The formatter failed. -/
  | format
  /-- The project's config was not read. -/
  | config
  /-- The formatter did not answer in time. -/
  | timeout
deriving DecidableEq, Repr, Inhabited

/-- The heading of a kind. -/
def LogKind.label : LogKind → String
  | .format => "Format error"
  | .config => "Config error"
  | .timeout => "Timeout"

/-- A failure. -/
structure LogEntry where
  fileId : FileId
  fileName : String
  kind : LogKind
  message : String
  stamp : Stamp
deriving DecidableEq, Repr, Inhabited

namespace LogEntry

/-- The location that the message names. -/
def location? (entry : LogEntry) : Option SourceLocation :=
  SourceLocation.parse? entry.message

/-- Where a click on the entry leads. -/
def jumpTarget? (entry : LogEntry) : Option Position :=
  entry.location?.map SourceLocation.position

/-- The entry as a card: kind and message, then file, location and time. -/
def render (entry : LogEntry) : String :=
  let origin := match entry.location? with
    | some location => entry.fileName ++ " (" ++ location.display ++ ")"
    | none => entry.fileName
  "[" ++ entry.kind.label ++ "] " ++ entry.message ++ "\n" ++ origin ++ "  " ++ entry.stamp.display

end LogEntry

/-- The failures that are kept, newest first. -/
structure ErrorLog where
  entries : List LogEntry
deriving DecidableEq, Repr, Inhabited

namespace ErrorLog

/-- The number of entries that are kept. -/
def capacity : Nat := 10

/-- A log without entries. -/
def empty : ErrorLog :=
  ⟨[]⟩

/-- Add an entry. The oldest ones past the capacity are dropped. -/
def record (log : ErrorLog) (entry : LogEntry) : ErrorLog :=
  ⟨(entry :: log.entries).take capacity⟩

/-- Remove the entries of a file. -/
def clear (log : ErrorLog) (file : FileId) : ErrorLog :=
  ⟨log.entries.filter fun entry => entry.fileId ≠ file⟩

/-- The number of entries that go when a file is cleared. -/
def clearCount (log : ErrorLog) (file : FileId) : Nat :=
  log.entries.length - (log.clear file).entries.length

/-- The entries of a file. -/
def entriesOf (log : ErrorLog) (file : FileId) : List LogEntry :=
  log.entries.filter fun entry => entry.fileId = file

/-- Whether there are entries. -/
def hasErrors (log : ErrorLog) : Bool :=
  !log.entries.isEmpty

/-- Whether there are entries of a file. -/
def hasErrorsFor (log : ErrorLog) (file : FileId) : Bool :=
  log.entries.any fun entry => entry.fileId = file

/-- The file and place that a click on the entry at an index leads to. -/
def jumpTarget? (log : ErrorLog) (index : Nat) : Option (FileId × Position) := do
  let entry ← log.entries[index]?
  return (entry.fileId, ← entry.jumpTarget?)

/-- The log holds no more than its capacity. -/
theorem length_record_le (log : ErrorLog) (entry : LogEntry) :
    (log.record entry).entries.length ≤ capacity :=
  List.length_take_le ..

/-- Clearing a file removes exactly its entries. -/
theorem mem_clear {log : ErrorLog} {file : FileId} {entry : LogEntry} :
    entry ∈ (log.clear file).entries ↔ entry ∈ log.entries ∧ entry.fileId ≠ file := by
  simp [clear]

end ErrorLog

end EditorFormat
