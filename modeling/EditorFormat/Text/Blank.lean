import EditorFormat.Text.Range

/-!
# Blanks

The white space of Unicode, and the blanks at the two ends of a text.
-/

namespace EditorFormat.Text

/-- The code points of white space. -/
def blankRanges : Ranges :=
  [
    (0x0009, 0x000D), (0x0020, 0x0020), (0x0085, 0x0085), (0x00A0, 0x00A0), (0x1680, 0x1680),
    (0x2000, 0x200A), (0x2028, 0x2029), (0x202F, 0x202F), (0x205F, 0x205F), (0x3000, 0x3000)
  ]

/-- White space. -/
def isBlank (c : Char) : Bool :=
  blankRanges.has c

/-- A text without the blanks at its front. -/
def trimFront (text : List Char) : List Char :=
  text.dropWhile isBlank

/-- A text without the blanks at both ends. -/
def trim (text : String) : String :=
  String.ofList (trimFront (trimFront text.toList).reverse).reverse

end EditorFormat.Text
