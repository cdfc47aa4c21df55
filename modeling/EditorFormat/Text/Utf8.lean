/-!
# Text from bytes

The text in a sequence of bytes that should be UTF-8. Where it is not, each longest start of
a character that breaks off, and each byte that starts no character, is read as the replacement
character.
-/

namespace EditorFormat.Text

/-- The character that stands for bytes that are no text. -/
def replacementChar : Char := '\ufffd'

/-- How a first byte goes on: the number of bytes that follow, the range of the first of them, and
the bits that the first byte gives. -/
structure Lead where
  following : Nat
  least : UInt8
  greatest : UInt8
  bits : Nat

/-- How a first byte beyond ASCII goes on. Overlong forms, surrogates and numbers that are too
large have no first byte, or are shut out by the range of the second one. -/
def lead? (byte : UInt8) : Option Lead :=
  if 0xC2 ≤ byte ∧ byte ≤ 0xDF then some ⟨1, 0x80, 0xBF, byte.toNat - 0xC0⟩
  else if byte = 0xE0 then some ⟨2, 0xA0, 0xBF, 0⟩
  else if byte = 0xED then some ⟨2, 0x80, 0x9F, 0xD⟩
  else if 0xE1 ≤ byte ∧ byte ≤ 0xEF then some ⟨2, 0x80, 0xBF, byte.toNat - 0xE0⟩
  else if byte = 0xF0 then some ⟨3, 0x90, 0xBF, 0⟩
  else if byte = 0xF4 then some ⟨3, 0x80, 0x8F, 4⟩
  else if 0xF1 ≤ byte ∧ byte ≤ 0xF3 then some ⟨3, 0x80, 0xBF, byte.toNat - 0xF0⟩
  else none

/-- What was read of a character. -/
inductive Partial where
  /-- Nothing: the next byte starts a character. -/
  | done
  /-- Some bytes with the value `bits`. More bytes follow, the next of them in a range. -/
  | started (bits following : Nat) (least greatest : UInt8)

/-- Read a byte that starts a character: the characters it completes, and what is read of one. -/
def Partial.first (byte : UInt8) : List Char × Partial :=
  if byte < 0x80 then ([Char.ofNat byte.toNat], .done)
  else
    match lead? byte with
    | none => ([replacementChar], .done)
    | some lead => ([], .started lead.bits lead.following lead.least lead.greatest)

/-- Read a byte. One that does not go on with the character that is being read starts another. -/
def Partial.next : Partial → UInt8 → List Char × Partial
  | .done, byte => first byte
  | .started bits following least greatest, byte =>
    if least ≤ byte ∧ byte ≤ greatest then
      let bits := bits * 0x40 + (byte.toNat - 0x80)
      if following = 1 then ([Char.ofNat bits], .done)
      else ([], .started bits (following - 1) 0x80 0xBF)
    else
      let (chars, state) := first byte
      (replacementChar :: chars, state)

/-- The characters in bytes, where a part of a character may have been read before. -/
def charsOfBytes : Partial → List UInt8 → List Char
  | .done, [] => []
  | .started .., [] => [replacementChar]
  | state, byte :: rest =>
    let (chars, state) := state.next byte
    chars ++ charsOfBytes state rest

/-- The text in bytes. -/
def ofBytes (bytes : List UInt8) : String :=
  String.ofList (charsOfBytes .done bytes)

end EditorFormat.Text
