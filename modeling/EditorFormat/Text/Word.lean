import EditorFormat.Text.Digit
import EditorFormat.Text.Letter
import EditorFormat.Text.Mark

/-!
# Words and identifiers

The characters that words are made of, and those that identifiers of a script are made of.
-/

namespace EditorFormat.Text

/-- The code points of punctuation that connects words. -/
def connectorRanges : Ranges :=
  [
    (0x005F, 0x005F), (0x203F, 0x2040), (0x2054, 0x2054), (0xFE33, 0xFE34), (0xFE4D, 0xFE4F),
    (0xFF3F, 0xFF3F)
  ]

/-- The code points of word characters that are neither letters, combining marks, decimal digits
nor connectors: the joiners, enclosing marks and letters inside a circle or square. -/
def otherWordRanges : Ranges :=
  [
    (0x0488, 0x0489), (0x1ABE, 0x1ABE), (0x200C, 0x200D), (0x20DD, 0x20E0), (0x20E2, 0x20E4),
    (0x24B6, 0x24E9), (0xA670, 0xA672), (0x1F130, 0x1F149), (0x1F150, 0x1F169), (0x1F170, 0x1F189)
  ]

/-- A letter, combining mark, decimal digit or connector. -/
def isNamePart (c : Char) : Bool :=
  isLetter c || isMark c || isDecimalDigit c || connectorRanges.has c

/-- A character of a word. -/
def isWordChar (c : Char) : Bool :=
  isNamePart c || otherWordRanges.has c

/-- The code points of word characters. -/
def wordRanges : Ranges :=
  letterRanges ++ markRanges ++ digitRanges ++ connectorRanges ++ otherWordRanges

/-- The classes of word characters together are one class. -/
theorem isWordChar_eq_has (c : Char) : isWordChar c = wordRanges.has c := by
  simp [isWordChar, isNamePart, isLetter, isMark, isDecimalDigit, wordRanges, Ranges.has,
    Bool.or_assoc]

/-- The letters, name parts and word characters of ASCII. -/
theorem classes_of_ascii {c : Char} (h : c.toNat < 128) :
    isLetter c = c.isAlpha ∧ isNamePart c = (c.isAlphanum || c == '_') ∧
      isWordChar c = (c.isAlphanum || c == '_') := by
  have hhigh : (∀ range ∈ letterRanges.drop 2, 128 ≤ range.1) ∧
      (∀ range ∈ markRanges.drop 0, 128 ≤ range.1) ∧ (∀ range ∈ digitRanges.drop 1, 128 ≤ range.1) ∧
        (∀ range ∈ connectorRanges.drop 1, 128 ≤ range.1) ∧
          ∀ range ∈ otherWordRanges.drop 0, 128 ≤ range.1 := by decide +kernel
  obtain ⟨hletter, hmark, hdigit, hconnector, hother⟩ := hhigh
  rw [isWordChar, isNamePart, isLetter, isMark, isDecimalDigit, Ranges.has_take hletter h,
    Ranges.has_take hmark h, Ranges.has_take hdigit h, Ranges.has_take hconnector h,
    Ranges.has_take hother h]
  exact of_toNat_lt h (by decide +kernel)

end EditorFormat.Text
