import EditorFormat.Engine.Formatter
import EditorFormat.Text.Selection

/-!
# Messages between the editor and a background worker

A request carries a number by which its response is recognised, the file it is for, and where the
selection was. The response gives all of these back with the outcome.
-/

namespace EditorFormat

namespace Position

/-- The written form of a position. -/
def encode (position : Position) : Json.Value :=
  .ofMembers [("row", .ofNat position.row), ("column", .ofNat position.column)]

/-- A position's fields while they are read. -/
structure Draft where
  row : Nat := 0
  column : Nat := 0

/-- The fields of a position. -/
def shape : Json.Shape Draft where
  name := "Position"
  fields := [
    ⟨"row", true, fun draft value => return { draft with row := ← value.decodeSize }⟩,
    ⟨"column", true, fun draft value => return { draft with column := ← value.decodeSize }⟩]

/-- Read a position. -/
def decode (value : Json.Value) : Except Json.DecodeError Position := do
  let draft ← shape.read {} value
  return ⟨draft.row, draft.column⟩

end Position

namespace Span

/-- The written form of a span. -/
def encode (span : Span) : Json.Value :=
  .ofMembers [("start", span.start.encode), ("end", span.stop.encode)]

/-- The fields of a span. -/
def shape : Json.Shape Span where
  name := "SelectionSpan"
  fields := [
    ⟨"start", true, fun span value => return { span with start := ← Position.decode value }⟩,
    ⟨"end", true, fun span value => return { span with stop := ← Position.decode value }⟩]

/-- Read a span. -/
def decode (value : Json.Value) : Except Json.DecodeError Span :=
  shape.read default value

end Span

/-- The number by which the response to a request is recognised. -/
abbrev RequestId := Nat

/-- How a request number is shown. -/
def RequestId.display (id : RequestId) : String :=
  "#" ++ toString id

/-- The editor's name for an open file. -/
abbrev FileId := String

/-- The parts of a request that its response gives back. -/
structure Envelope where
  id : RequestId
  fileId : FileId
  isSelection : Bool
  selectionRange : Option Span
deriving DecidableEq, Repr, Inhabited

/-- A request to a worker. -/
structure WorkerRequest where
  id : RequestId
  fileId : FileId
  code : String
  cursorOptions : CursorOptions
  isSelection : Bool
  selectionRange : Option Span
deriving Inhabited

/-- The response of a worker. -/
structure WorkerResponse where
  id : RequestId
  fileId : FileId
  action : String
  result : Option FormatResult
  error : Option ErrorInfo
  isSelection : Bool
  selectionRange : Option Span
deriving DecidableEq, Repr, Inhabited

/-- The members of a message that are left out at their default. -/
def envelopeMembers (isSelection : Bool) (selectionRange : Option Span) :
    List (String × Json.Value) :=
  (if isSelection then [("isSelection", .bool true)] else [])
    ++ (selectionRange.map fun span => ("selectionRange", span.encode)).toList

namespace WorkerRequest

/-- The call of the formatter. -/
def request (message : WorkerRequest) : FormatRequest :=
  ⟨message.code, message.cursorOptions, message.isSelection⟩

/-- What the response gives back. -/
def envelope (message : WorkerRequest) : Envelope :=
  ⟨message.id, message.fileId, message.isSelection, message.selectionRange⟩

/-- The written form. -/
def encode (message : WorkerRequest) : Json.Value :=
  .ofMembers <|
    [("id", .ofNat message.id), ("fileId", .string message.fileId),
      ("code", .string message.code), ("cursorOptions", message.cursorOptions.encode)]
    ++ envelopeMembers message.isSelection message.selectionRange

/-- The fields of a request. -/
def shape : Json.Shape WorkerRequest where
  name := "WorkerRequest"
  fields := [
    ⟨"id", true, fun draft value => return { draft with id := ← value.decodeWord64 }⟩,
    ⟨"fileId", true, fun draft value => return { draft with fileId := ← value.decodeText }⟩,
    ⟨"code", true, fun draft value => return { draft with code := ← value.decodeText }⟩,
    ⟨"cursorOptions", true, fun draft value =>
      return { draft with cursorOptions := ← CursorOptions.decode value }⟩,
    ⟨"isSelection", false, fun draft value =>
      return { draft with isSelection := ← value.decodeBool }⟩,
    ⟨"selectionRange", false, fun draft value =>
      return { draft with selectionRange := ← value.decodeOptional Span.decode }⟩]

/-- Read a request. -/
def decode (value : Json.Value) : Except Json.DecodeError WorkerRequest :=
  shape.read default value

end WorkerRequest

/-- The action of every response. -/
def formatAction : String :=
  "code format"

/-- The response to an outcome. -/
def Envelope.respond (envelope : Envelope) (outcome : Outcome) : WorkerResponse where
  id := envelope.id
  fileId := envelope.fileId
  action := formatAction
  result := match outcome with
    | .ok result => some result
    | .error _ => none
  error := match outcome with
    | .ok _ => none
    | .error error => some error.info
  isSelection := envelope.isSelection
  selectionRange := envelope.selectionRange

namespace WorkerResponse

/-- The outcome of a response. An error goes before a result. -/
def outcome (message : WorkerResponse) : Except ErrorInfo FormatResult :=
  match message.error, message.result with
  | some error, _ => .error error
  | none, some result => .ok result
  | none, none => .error ⟨"formatter returned neither a result nor an error", none⟩

/-- The written form. -/
def encode (message : WorkerResponse) : Json.Value :=
  .ofMembers <|
    [("id", .ofNat message.id), ("fileId", .string message.fileId),
      ("action", .string message.action)]
    ++ (message.result.map fun result => ("res", result.encode)).toList
    ++ (message.error.map fun error => ("error", error.encode)).toList
    ++ envelopeMembers message.isSelection message.selectionRange

/-- The fields of a response. -/
def shape : Json.Shape WorkerResponse where
  name := "WorkerResponse"
  fields := [
    ⟨"id", true, fun draft value => return { draft with id := ← value.decodeWord64 }⟩,
    ⟨"fileId", true, fun draft value => return { draft with fileId := ← value.decodeText }⟩,
    ⟨"action", true, fun draft value => return { draft with action := ← value.decodeText }⟩,
    ⟨"res", false, fun draft value =>
      return { draft with result := ← value.decodeOptional FormatResult.decode }⟩,
    ⟨"error", false, fun draft value =>
      return { draft with error := ← value.decodeOptional ErrorInfo.decode }⟩,
    ⟨"isSelection", false, fun draft value =>
      return { draft with isSelection := ← value.decodeBool }⟩,
    ⟨"selectionRange", false, fun draft value =>
      return { draft with selectionRange := ← value.decodeOptional Span.decode }⟩]

/-- Read a response. -/
def decode (value : Json.Value) : Except Json.DecodeError WorkerResponse :=
  shape.read default value

end WorkerResponse

end EditorFormat
