/-!
# UTF-16 code units

Some formatters index text in UTF-16 code units, in which a character beyond the sixteen-bit range
counts twice. The two conversions here saturate at the end of the text, and a unit offset inside
a character rounds down to the character's start.
-/

namespace EditorFormat.Text

/-- The number of UTF-16 code units of a character. -/
def units (c : Char) : Nat :=
  if c.toNat < 0x10000 then 1 else 2

/-- A character has at least one unit. -/
theorem units_pos (c : Char) : 0 < units c := by
  unfold units
  split <;> decide

/-- The number of units in the first `offset` characters. -/
def unitsBefore : List Char → Nat → Nat
  | [], _ => 0
  | _ :: _, 0 => 0
  | c :: rest, offset + 1 => units c + unitsBefore rest offset

/-- The number of characters that end within the first `offset` units. -/
def charsWithin : List Char → Nat → Nat
  | [], _ => 0
  | c :: rest, offset =>
    if offset < units c then 0 else 1 + charsWithin rest (offset - units c)

/-- The unit offset of a character offset. -/
def toUnitOffset (text : String) (offset : Nat) : Nat :=
  unitsBefore text.toList offset

/-- The character offset of a unit offset, rounded down. -/
def ofUnitOffset (text : String) (offset : Nat) : Nat :=
  charsWithin text.toList offset

/-- The units before an offset are those of the characters before it. -/
theorem unitsBefore_eq_foldr_take (text : List Char) (offset : Nat) :
    unitsBefore text offset = (text.take offset).foldr (fun c total => units c + total) 0 := by
  induction text generalizing offset with
  | nil => simp [unitsBefore]
  | cons c rest ih => cases offset <;> simp [unitsBefore, ih]

end EditorFormat.Text
