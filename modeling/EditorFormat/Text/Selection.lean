import EditorFormat.Text.Position

/-!
# Selections and spans

A selection is what the user marked: it may be empty, may run backwards and may reach outside the
document. A span is a range of the document with its start first. `Selection.expand` turns a
selection into the span of whole lines it touches, and `Span.replace` puts a text in place of
a span.
-/

namespace EditorFormat

open Text

/-- A range of a document. -/
structure Span where
  start : Position
  stop : Position
deriving DecidableEq, Repr, Inhabited

namespace Span

/-- The number of lines the span covers. A span that runs backwards covers one. -/
def lineCount (span : Span) : Nat :=
  span.stop.row - span.start.row + 1

/-- The span of the rows `first` to `last` of the given lines, from column zero to the end of the
last row. -/
def ofRows (lines : List (List Char)) (first last : Nat) : Span :=
  ⟨⟨first, 0⟩, ⟨last, ((lines[last]?).getD []).length⟩⟩

/-- The span of the whole document. -/
def document (text : String) : Span :=
  let lines := Lines.split text.toList
  ofRows lines 0 (lines.length - 1)

/-- The text with the characters from `first` up to `last` replaced. Offsets past the end are the
end, and a range that runs backwards is empty at its start. -/
def replaceChars (text : List Char) (first last : Nat) (replacement : List Char) : List Char :=
  text.take first ++ replacement ++ text.drop (max first last)

/-- The text with the part covered by the span replaced. -/
def replace (text : String) (span : Span) (replacement : String) : String :=
  String.ofList (replaceChars text.toList (span.start.offset text) (span.stop.offset text)
    replacement.toList)

/-- The text with the part covered by the span replaced, where sums of words are checked. An end of
the span whose offset is no word ends the program. -/
def checkedReplace? (text : String) (span : Span) (replacement : String) : Option String := do
  let first ← span.start.checkedOffset? text
  let last ← span.stop.checkedOffset? text
  return String.ofList (replaceChars text.toList first last replacement.toList)

end Span

/-- A selection as the editor reports it. -/
structure Selection where
  start : Position
  stop : Position
deriving DecidableEq, Repr, Inhabited

namespace Selection

/-- The collapsed selection at a position. -/
def caret (position : Position) : Selection :=
  ⟨position, position⟩

/-- A selection with equal ends selects nothing. -/
def isEmpty (selection : Selection) : Bool :=
  selection.start == selection.stop

/-- The selection with its earlier end first. -/
def ordered (selection : Selection) : Selection :=
  if selection.stop.Before selection.start then ⟨selection.stop, selection.start⟩ else selection

/-- The first and the last row of whole lines that a selection with its earlier end first touches,
in a document whose last row is `bottom`. A selection that ends at column zero of a later row does
not touch that row. -/
def rows (selection : Selection) (bottom : Nat) : Nat × Nat :=
  let first := min selection.start.row bottom
  let last :=
    if selection.stop.column = 0 ∧ first < selection.stop.row then selection.stop.row - 1
    else selection.stop.row
  (first, max first (min last bottom))

/-- The whole lines a selection touches: their span and their text. An empty selection touches
none. -/
def expand (text : String) (selection : Selection) : Option (Span × String) :=
  if selection.isEmpty then none
  else
    let lines := Lines.split text.toList
    let (first, last) := selection.ordered.rows (lines.length - 1)
    let selected := (lines.drop first).take (last + 1 - first)
    some (Span.ofRows lines first last, String.ofList (Lines.join selected))

end Selection

end EditorFormat
