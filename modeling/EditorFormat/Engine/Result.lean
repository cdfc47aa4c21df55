import EditorFormat.Json.Decode

/-!
# Results and errors of a formatter

A formatter gives the formatted text, with the moved cursor when it tracked one, or it fails. An
error is passed on as a message with the name of its kind.
-/

namespace EditorFormat

/-- What a formatter gives. -/
inductive FormatResult where
  /-- The text, and where the cursor is in it now. -/
  | withCursor (text : String) (cursorOffset : Nat)
  /-- The text alone. -/
  | plain (text : String)
deriving DecidableEq, Repr, Inhabited

namespace FormatResult

/-- The formatted text. -/
def text : FormatResult → String
  | .withCursor text _ => text
  | .plain text => text

/-- The tracked cursor. -/
def cursorOffset? : FormatResult → Option Nat
  | .withCursor _ offset => some offset
  | .plain _ => none

/-- The written form: an object with the text and the cursor, or the text alone. -/
def encode : FormatResult → Json.Value
  | .withCursor text offset =>
    .ofMembers [("formatted", .string text), ("cursorOffset", .ofNat offset)]
  | .plain text => .string text

/-- Whether two members have one of the given keys. -/
def repeats (members : List (String × Json.Value)) (key : String) : Bool :=
  1 < (members.filter fun member => member.1 = key).length

/-- Read a result from the members of an object, which must hold the text and the cursor, each
once. -/
def ofMembers? (members : List (String × Json.Value)) : Option FormatResult :=
  if repeats members "formatted" || repeats members "cursorOffset" then none
  else
    match members.lookup "formatted", members.lookup "cursorOffset" with
    | some (.string text), some (.int offset) =>
      if 0 ≤ offset ∧ offset < UInt64.size then some (.withCursor text offset.toNat) else none
    | _, _ => none

/-- Read a result. -/
def decode : Json.Value → Except Json.DecodeError FormatResult
  | .string text => .ok (.plain text)
  | .object members =>
    (ofMembers? members).elim (.error (.noAlternative "FormatResult")) .ok
  | _ => .error (.noAlternative "FormatResult")

end FormatResult

/-- An error as it is passed on. -/
structure ErrorInfo where
  message : String
  name : Option String
deriving DecidableEq, Repr, Inhabited

namespace ErrorInfo

/-- The written form. -/
def encode (error : ErrorInfo) : Json.Value :=
  .ofMembers <| [("message", .string error.message)]
    ++ (error.name.map fun name => ("name", .string name)).toList

/-- An error's fields while they are read. -/
structure Draft where
  message : Option String := none
  name : Option String := none

/-- The fields of an error. -/
def shape : Json.Shape Draft where
  name := "ErrorInfo"
  fields := [
    ⟨"message", true, fun draft value =>
      return { draft with message := some (← value.decodeText) }⟩,
    ⟨"name", false, fun draft value =>
      return { draft with name := ← value.decodeOptional Json.Value.decodeText }⟩]

/-- Read an error. -/
def decode (value : Json.Value) : Except Json.DecodeError ErrorInfo := do
  let draft ← shape.read {} value
  return ⟨draft.message.getD "", draft.name⟩

end ErrorInfo

/-- Why a formatter fails. -/
inductive EngineError where
  /-- The formatter rejects the document. -/
  | rejected (message : String)
  /-- The formatter's program cannot be started. -/
  | notStarted (program cause : String)
  /-- Talking to the formatter fails. -/
  | io (cause : String)
  /-- The formatter's reply is not understood. -/
  | badReply (cause : String)
deriving DecidableEq, Repr, Inhabited

namespace EngineError

/-- The wording of an error. -/
def message : EngineError → String
  | .rejected message => message
  | .notStarted program cause => "failed to start formatter '" ++ program ++ "': " ++ cause
  | .io cause => "formatter I/O error: " ++ cause
  | .badReply cause => "invalid formatter response: " ++ cause

/-- The name of an error's kind. -/
def name : EngineError → String
  | .rejected _ => "FormatError"
  | .notStarted _ _ => "SpawnError"
  | .io _ => "IoError"
  | .badReply _ => "ProtocolError"

/-- The error as it is passed on. -/
def info (error : EngineError) : ErrorInfo :=
  ⟨error.message, some error.name⟩

end EngineError

end EditorFormat
