import EditorFormat.Text.Lines

/-!
# Positions in a text

An editor names a place in a document by row and column, a formatter by the number of characters
before it. Both count from zero, columns count characters, and a newline counts as one character.
`Position.offset` and `Position.ofOffset` convert between the two.

Offsets are words of 64 bits. The offset of a position far outside of the text may be none: then the
sum wraps around (`Position.offset`) or ends the program (`Position.checkedOffset?`), as the
arithmetic of the program has it.
-/

namespace EditorFormat

open Text

/-- A row and a column, both counted from zero. -/
structure Position where
  row : Nat
  column : Nat
deriving DecidableEq, Repr, Inhabited

namespace Position

/-- A position reads `row:column`. -/
def display (position : Position) : String :=
  s!"{position.row}:{position.column}"

/-- Document order: by row, then by column. -/
def Before (first second : Position) : Prop :=
  first.row < second.row ∨ first.row = second.row ∧ first.column < second.column

instance (first second : Position) : Decidable (Before first second) :=
  inferInstanceAs (Decidable (_ ∨ _))

/-- The number of characters before a row and column of the given lines. A row past the last line
is the end of the last line. -/
def offsetIn : List (List Char) → Nat → Nat → Nat
  | [], _, _ => 0
  | _ :: _, 0, column => column
  | [line], _ + 1, _ => line.length
  | line :: later, row + 1, column => line.length + 1 + offsetIn later row column

/-- The exact number of characters of the text before the position. A row past the last line is the
end of the text; the column is taken as it is, even past the end of its line. -/
def exactOffset (text : String) (position : Position) : Nat :=
  offsetIn (Lines.split text.toList) position.row position.column

/-- The column is so far past the end of its line that the offset is no word. A text is in memory,
so the offsets in it are words. -/
def Overflows (text : String) (position : Position) : Prop :=
  text.toList.length < position.exactOffset text ∧ UInt64.size ≤ position.exactOffset text

instance (text : String) (position : Position) : Decidable (position.Overflows text) :=
  inferInstanceAs (Decidable (_ ∧ _))

/-- The offset of a position where sums of words wrap around. -/
def offset (text : String) (position : Position) : Nat :=
  if position.Overflows text then position.exactOffset text % UInt64.size
  else position.exactOffset text

/-- The offset of a position where sums of words are checked. A sum that is no word ends the
program. -/
def checkedOffset? (text : String) (position : Position) : Option Nat :=
  if position.Overflows text then none else some (position.exactOffset text)

/-- The offset of a position that is not behind the text is exact. -/
theorem offset_eq_exact {text : String} {position : Position}
    (h : position.exactOffset text ≤ text.toList.length) :
    position.offset text = position.exactOffset text :=
  if_neg fun hover => Nat.not_lt.2 h hover.1

/-- A sum that is a word is the same in either arithmetic. -/
theorem checkedOffset?_eq {text : String} {position : Position} (h : ¬ position.Overflows text) :
    position.checkedOffset? text = some (position.offset text) := by
  rw [checkedOffset?, offset, if_neg h, if_neg h]

/-- The place of an offset in the given lines. A newline is found at the end of its line, and an
offset past the end is the end of the last line. -/
def ofOffsetIn : List (List Char) → Nat → Position
  | [], _ => ⟨0, 0⟩
  | [line], offset => ⟨0, min offset line.length⟩
  | line :: later, offset =>
    if offset ≤ line.length then ⟨0, offset⟩
    else
      let found := ofOffsetIn later (offset - (line.length + 1))
      ⟨found.row + 1, found.column⟩

/-- The position that has `offset` characters before it; the end of the text when the text is
shorter. -/
def ofOffset (text : String) (offset : Nat) : Position :=
  ofOffsetIn (Lines.split text.toList) offset

end Position

end EditorFormat
