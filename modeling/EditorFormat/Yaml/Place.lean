/-!
# Characters and their places

YAML gives a meaning to lines and columns, so its text is read as a list of characters that each
know their place. Line ends are made one: a carriage return, a line feed, both together and the
next-line character all become a line feed.
-/

namespace EditorFormat.Yaml

/-- A character with its line, its column and the number of characters before it. -/
structure Place where
  char : Char
  line : Nat
  column : Nat
  index : Nat
deriving Repr, Inhabited

/-- The ends of lines, after they were made one. -/
def isBreak (c : Char) : Bool :=
  c == '\n' || c == '\u2028' || c == '\u2029'

/-- Blanks inside a line. -/
def isBlank (c : Char) : Bool :=
  c == ' ' || c == '\t'

/-- The characters a text may hold. -/
def isAllowed (c : Char) : Bool :=
  let code := c.toNat
  code == 0x09 || code == 0x0A || code == 0x0D || code == 0x85
    || (0x20 ≤ code && code ≤ 0x7E) || (0xA0 ≤ code && code ≤ 0xD7FF)
    || (0xE000 ≤ code && code ≤ 0xFFFD) || 0x10000 ≤ code

namespace Place

/-- The characters from a place on. -/
def ofChars : Nat → Nat → Nat → List Char → List Place
  | _, _, _, [] => []
  | line, column, index, '\r' :: '\n' :: rest =>
    ⟨'\n', line, column, index⟩ :: ofChars (line + 1) 0 (index + 2) rest
  | line, column, index, c :: rest =>
    if c = '\n' ∨ c = '\r' ∨ c = '\u0085' then
      ⟨'\n', line, column, index⟩ :: ofChars (line + 1) 0 (index + 1) rest
    else if isBreak c then ⟨c, line, column, index⟩ :: ofChars (line + 1) 0 (index + 1) rest
    else ⟨c, line, column, index⟩ :: ofChars line (column + 1) (index + 1) rest

/-- The characters of a text. A text with a character that is not allowed has none. -/
def ofText? (text : String) : Option (List Place) :=
  if text.toList.all isAllowed then some (ofChars 0 0 0 text.toList) else none

end Place

/-- The text from some place on. -/
abbrev Places := List Place

namespace Places

/-- The character at a distance. -/
def char? (places : Places) (distance : Nat) : Option Char :=
  (places[distance]?).map (·.char)

/-- The column; zero at the end of the text. -/
def column (places : Places) : Nat :=
  (places.head?.map (·.column)).getD 0

/-- Whether a blank, a line end or the end of the text is at a distance. -/
def gapAt (places : Places) (distance : Nat) : Bool :=
  match places.char? distance with
  | none => true
  | some c => isBlank c || isBreak c

/-- Whether the text starts with a character. -/
def startsWith (places : Places) (c : Char) : Bool :=
  places.char? 0 == some c

/-- Whether the text starts with three equal characters, alone at the start of a line. -/
def markedBy (places : Places) (c : Char) : Bool :=
  places.column == 0 && places.char? 0 == some c && places.char? 1 == some c
    && places.char? 2 == some c && places.gapAt 3

/-- Whether a document starts or ends here. -/
def atDocumentMark (places : Places) : Bool :=
  places.markedBy '-' || places.markedBy '.'

/-- The characters at the front that have a property. -/
def takeChars (places : Places) (p : Char → Bool) : List Char :=
  (places.takeWhile fun place => p place.char).map (·.char)

/-- The text after the characters at the front that have a property. -/
def dropChars (places : Places) (p : Char → Bool) : Places :=
  places.dropWhile fun place => p place.char

/-- The text after a byte order mark, if one starts the line here. The mark keeps its column. -/
def dropOrderMark (places : Places) : Places :=
  if places.column == 0 && places.startsWith '\ufeff' then places.drop 1 else places

/-- The text after a comment, if one starts here. -/
def dropComment (places : Places) : Places :=
  if places.startsWith '#' then places.dropChars (!isBreak ·) else places

/-- The rest of a line that holds nothing but blanks and a comment, with its line end. -/
def dropLineEnd? (places : Places) : Option Places :=
  match (places.dropChars isBlank).dropComment with
  | [] => some []
  | place :: rest => if isBreak place.char then some rest else none

end Places

end EditorFormat.Yaml
