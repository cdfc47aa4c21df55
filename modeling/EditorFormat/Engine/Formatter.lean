import EditorFormat.Engine.Result
import EditorFormat.Options.CursorOptions

/-!
# Formatters

A formatter answers requests one at a time. It may keep state between them, may fail on a request,
and may even crash; a crash is seen by the caller as a reply that is not understood.
-/

namespace EditorFormat

/-- What a formatter is asked to do. -/
structure FormatRequest where
  code : String
  options : CursorOptions
  /-- The code is a selection that is formatted on its own, without a cursor. -/
  isSelection : Bool
deriving Inhabited

/-- How a formatter reacts to a request. -/
inductive Reaction where
  | returned (result : FormatResult)
  | failed (error : EngineError)
  | crashed
deriving DecidableEq, Repr, Inhabited

/-- The outcome of a call. -/
abbrev Outcome := Except EngineError FormatResult

/-- The outcome that a caller sees, who survives a crash. -/
def Reaction.outcome : Reaction → Outcome
  | .returned result => .ok result
  | .failed error => .error error
  | .crashed => .error (.badReply "formatter panicked")

/-- A formatter with a state of type `σ`. -/
abbrev Formatter (σ : Type) := σ → FormatRequest → Reaction × σ

end EditorFormat
