import EditorFormat.Engine.Formatter
import EditorFormat.Json.Skim

/-!
# Replies of a formatter's program

A program replies with an object or an array of two values, either of which may be missing or
null: a result, and an error with a message. An error goes before a result.
-/

namespace EditorFormat.Bridge

open Json (Reader Value Parts)

/-- A reply. -/
structure Reply where
  result : Option FormatResult
  error : Option String
deriving DecidableEq, Repr, Inhabited

namespace Reply

/-- The number of containers that a value in a reply may open at once, plus one. -/
def depthLimit : Nat :=
  Reader.depthLimit - 1

/-- A result or null. The members of an object are taken as they are written, so that a repeated
one is noticed. -/
def resultOrNull : Reader (Option FormatResult) := do
  match ← Reader.peekToken with
  | '{' =>
    Reader.advance
    let step (members : List (String × Value)) (key : String) :
        Reader (List (String × Value)) := do
      Reader.colon
      return members ++ [(key, ← Reader.value (depthLimit - 1))]
    let members ← Reader.foldMembers step ((← get).length + 1) true []
    match FormatResult.ofMembers? members with
    | some found => pure (some found)
    | none => throw .malformed
  | _ =>
    match ← Reader.value depthLimit with
    | .null => pure none
    | .string text => pure (some (.plain text))
    | _ => throw .malformed

/-- The result in a text. -/
def result? (text : String) : Option (Option FormatResult) :=
  (Reader.run resultOrNull text).toOption

/-- The message of the error in a text. The text `null` has no error. -/
def error? (text : String) : Option (Option String) :=
  if text = "null" then some none
  else do
    match ← (← Parts.read? ["message"] text.toUTF8.toList).values? ["message"] with
    | [some message] =>
      match Value.read message with
      | .ok (.string message) => some (some message)
      | _ => none
    | _ => none

/-- The reply in the output of a program, if it is one. -/
def read? (output : List UInt8) : Option Reply := do
  match ← (← Parts.read? ["ok", "error"] output).values? ["ok", "error"] with
  | [result, error] =>
    let result ← result.elim (some none) result?
    let error ← error.elim (some none) error?
    return ⟨result, error⟩
  | _ => none

/-- What a reply means. -/
def outcome (reply : Reply) : Outcome :=
  match reply.error, reply.result with
  | some message, _ => .error (.rejected message)
  | none, some result => .ok result
  | none, none => .error (.badReply "empty reply")

end Reply

end EditorFormat.Bridge
