import EditorFormat.Text.Digit
import EditorFormat.Text.Position

/-!
# Locations in messages

Messages name a place in the source as `line:column`, both counted from one. Only the first colon
with a digit on either side counts: when the numbers around it are too large or are written with
digits of another script, there is no location.
-/

namespace EditorFormat

/-- A place in a source text, counted from one. -/
structure SourceLocation where
  line : Nat
  column : Nat
deriving DecidableEq, Repr, Inhabited

namespace SourceLocation

open Text (isDecimalDigit)

/-- The digits on both sides of the first colon that has digits on both sides. `before` holds the
digits that were just read, the last one first. -/
def digitPair? : List Char → List Char → Option (List Char × List Char)
  | _, [] => none
  | before, c :: rest =>
    if isDecimalDigit c then digitPair? (c :: before) rest
    else if c = ':' ∧ before ≠ [] ∧ (rest.head?.any isDecimalDigit) then
      some (before.reverse, rest.takeWhile isDecimalDigit)
    else digitPair? [] rest

/-- The number below `2 ^ 64` that a sequence of digits stands for. -/
def number? (digits : List Char) : Option Nat :=
  if digits.all Char.isDigit then
    let n := Nat.ofDigitChars 10 digits 0
    if n < UInt64.size then some n else none
  else none

/-- The location in a message. -/
def parse? (message : String) : Option SourceLocation := do
  let (line, column) ← digitPair? [] message.toList
  return ⟨← number? line, ← number? column⟩

/-- The position in a document, counted from zero. -/
def position (location : SourceLocation) : Position :=
  ⟨location.line - 1, location.column - 1⟩

/-- A location reads `line:column`. -/
def display (location : SourceLocation) : String :=
  toString location.line ++ ":" ++ toString location.column

end SourceLocation

end EditorFormat
