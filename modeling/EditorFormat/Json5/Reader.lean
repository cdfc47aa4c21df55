import EditorFormat.Json.Reader
import EditorFormat.Text.Word

/-!
# Reading JSON5 text

JSON5 is JSON with comments, identifiers as keys, two kinds of quotes, a trailing comma, and more
ways to write a number. A number that is no 64-bit integer is read as a float, and one that is not
finite becomes null.
-/

namespace EditorFormat.Json5

open Json (Value Object)
open Json.Reader (hexValue? ofWhole)

/-- A reader consumes a part of the text that is left, or fails. -/
abbrev Reader (α : Type) := StateT (List Char) Option α

/-! ## Blanks and comments -/

/-- The end of a line. -/
def isLineEnd (c : Char) : Bool :=
  c == '\n' || c == '\r' || c == '\u2028' || c == '\u2029'

/-- The code points of blanks that are no line ends. -/
def spaceRanges : Text.Ranges :=
  [(0x0009, 0x0009), (0x000B, 0x000C), (0x0020, 0x0020), (0x00A0, 0x00A0), (0x1680, 0x1680),
    (0x2000, 0x200A), (0x202F, 0x202F), (0x205F, 0x205F), (0x3000, 0x3000), (0xFEFF, 0xFEFF)]

/-- White space between tokens. -/
def isBlank (c : Char) : Bool :=
  isLineEnd c || spaceRanges.has c

/-- Where a text is, while blanks and comments are skipped. -/
inductive Gap where
  | open
  | lineComment
  /-- Inside a block comment, and whether a star was just read. -/
  | blockComment (star : Bool)

/-- The text after blanks and comments. A block comment must be closed. -/
def skipGap : Gap → List Char → Option (List Char)
  | .blockComment _, [] => none
  | _, [] => some []
  | .open, '/' :: '/' :: rest => skipGap .lineComment rest
  | .open, '/' :: '*' :: rest => skipGap (.blockComment false) rest
  | .open, c :: rest => if isBlank c then skipGap .open rest else some (c :: rest)
  | .lineComment, c :: rest => skipGap (if isLineEnd c then .open else .lineComment) rest
  | .blockComment star, c :: rest =>
    skipGap (if star && c == '/' then .open else .blockComment (c == '*')) rest

/-- Skip blanks and comments. -/
def skipBlanks : Reader Unit := do
  set (← (skipGap .open (← get) : Option (List Char)))

/-- Skip blanks and comments and look at the next character. -/
def peekToken : Reader Char := do
  skipBlanks
  (← get).head?

/-- The next character. -/
def next : Reader Char := do
  match ← get with
  | [] => failure
  | c :: rest => set rest; pure c

/-- Read exactly the given characters. -/
def word : List Char → Reader Unit
  | [] => pure ()
  | expected :: later => do
    if (← next) = expected then word later else failure

/-- The characters at the front of the text that have a property. -/
def takeWhile (p : Char → Bool) : Reader (List Char) := do
  let text ← get
  set (text.dropWhile p)
  pure (text.takeWhile p)

/-- The value of exactly `count` hexadecimal digits. -/
def hexDigits (count : Nat) : Reader Nat := do
  let text ← get
  if text.length < count then failure
  else
    set (text.drop count)
    (hexValue? (text.take count) : Option Nat)

/-- The character of an escaped code unit. A high surrogate must be followed by an escaped low
one. -/
def unicodeEscape : Reader Char := do
  let unit ← hexDigits 4
  if 0xDC00 ≤ unit ∧ unit ≤ 0xDFFF then failure
  else if 0xD800 ≤ unit ∧ unit ≤ 0xDBFF then
    word ['\\', 'u']
    let low ← hexDigits 4
    if 0xDC00 ≤ low ∧ low ≤ 0xDFFF then
      pure (Char.ofNat (0x10000 + (unit - 0xD800) * 0x400 + (low - 0xDC00)))
    else failure
  else pure (Char.ofNat unit)

/-! ## Strings -/

/-- The characters that an escape stands for, whose backslash was read. An escaped line end stands
for nothing, and a character without a meaning of its own for itself. -/
def escape : Reader (List Char) := do
  match ← next with
  | 'b' => pure ['\x08']
  | 'f' => pure ['\x0c']
  | 'n' => pure ['\n']
  | 'r' => pure ['\r']
  | 't' => pure ['\t']
  | 'v' => pure ['\x0b']
  | 'x' => return [Char.ofNat (← hexDigits 2)]
  | 'u' => return [← unicodeEscape]
  | '0' =>
    match (← get).head? with
    | some c => if c.isDigit then failure else pure ['\x00']
    | none => pure ['\x00']
  | '\r' =>
    match ← get with
    | '\n' :: rest => set rest; pure []
    | _ => pure []
  | c => if c.isDigit then failure else if isLineEnd c then pure [] else pure [c]

/-- The characters up to the closing quote. -/
def stringChars (quote : Char) : Nat → Reader (List Char)
  | 0 => failure
  | fuel + 1 => do
    let c ← next
    if c = quote then pure []
    else if c = '\\' then return (← escape) ++ (← stringChars quote fuel)
    else if c = '\n' ∨ c = '\r' then failure
    else return c :: (← stringChars quote fuel)

/-- A string whose opening quote was read. -/
def stringTail (quote : Char) : Reader String := do
  return String.ofList (← stringChars quote ((← get).length + 1))

/-! ## Identifiers -/

/-- The first character of an identifier. -/
def isIdentifierStart (c : Char) : Bool :=
  c == '$' || c == '_' || Text.isLetter c

/-- A later character of an identifier. -/
def isIdentifierPart (c : Char) : Bool :=
  c == '$' || c == '\u200c' || c == '\u200d' || Text.isNamePart c

/-- The characters of an identifier. Escaped characters must be allowed there too. -/
def identifierChars : Nat → Bool → Reader (List Char)
  | 0, _ => pure []
  | fuel + 1, isFirst => do
    let allowed := if isFirst then isIdentifierStart else isIdentifierPart
    match ← get with
    | [] => pure []
    | '\\' :: rest =>
      set rest
      word ['u']
      let c ← unicodeEscape
      if allowed c then return c :: (← identifierChars fuel false) else failure
    | c :: rest =>
      if allowed c then
        set rest
        return c :: (← identifierChars fuel false)
      else pure []

/-- An identifier. -/
def identifier : Reader String := do
  let found ← identifierChars ((← get).length + 1) true
  if found.isEmpty then failure else pure (String.ofList found)

/-! ## Numbers -/

/-- A float, or null when it is not finite. -/
def finite (value : Float) : Value :=
  if value.isFinite then .float value else .null

/-- A whole number with its sign. -/
def whole (negative : Bool) (magnitude : Nat) : Value :=
  if magnitude < UInt64.size then ofWhole negative magnitude
  else
    let value := Decimal.ofDecimal magnitude 0
    finite (if negative then -value else value)

/-- The sign of an exponent, if there is one. -/
def exponentSign : Reader Bool := do
  match ← get with
  | '+' :: rest => set rest; pure false
  | '-' :: rest => set rest; pure true
  | _ => pure false

/-- An exponent whose mark was read. -/
def exponent : Reader Int := do
  let negative ← exponentSign
  let digits ← takeWhile Char.isDigit
  if digits.isEmpty then failure
  else
    let size : Int := Nat.ofDigitChars 10 digits 0
    pure (if negative then -size else size)

/-- The places after a point, if there is a point. -/
def fraction : Reader (Option (List Char)) := do
  match ← get with
  | '.' :: rest => set rest; some <$> takeWhile Char.isDigit
  | _ => pure none

/-- The exponent with its mark, if there is a mark. -/
def power : Reader (Option Int) := do
  match ← get with
  | c :: rest => if c = 'e' ∨ c = 'E' then set rest; some <$> exponent else pure none
  | [] => pure none

/-- The value of a decimal number by its parts. It is whole when it has neither a fraction nor an
exponent. -/
def ofParts (negative : Bool) (digits : List Char) : Option (List Char) → Option Int → Value
  | none, none => whole negative (Nat.ofDigitChars 10 digits 0)
  | fraction, power =>
    let places := fraction.getD []
    let number := Nat.ofDigitChars 10 (digits ++ places) 0
    let value := Decimal.ofDecimal number (power.getD 0 - places.length)
    finite (if negative then -value else value)

/-- A decimal number without its sign. -/
def decimal (negative : Bool) : Reader Value := do
  let digits ← takeWhile Char.isDigit
  match digits with
  | '0' :: _ :: _ => failure
  | _ =>
    let fraction ← fraction
    if digits.isEmpty && (fraction.getD []).isEmpty then failure
    else return ofParts negative digits fraction (← power)

/-- A number without its sign. -/
def unsignedNumber (negative : Bool) : Reader Value := do
  match ← get with
  | 'I' :: _ => word "Infinity".toList; pure .null
  | 'N' :: _ => word "NaN".toList; pure .null
  | '0' :: c :: rest =>
    if c = 'x' ∨ c = 'X' then
      set rest
      let digits ← takeWhile fun digit => (Json.Reader.hexDigit? digit).isSome
      if digits.isEmpty then failure else pure (whole negative ((hexValue? digits).getD 0))
    else decimal negative
  | _ => decimal negative

/-- A number. -/
def number : Reader Value := do
  match ← get with
  | '+' :: rest => set rest; unsignedNumber false
  | '-' :: rest => set rest; unsignedNumber true
  | _ => unsignedNumber false

/-! ## Containers -/

/-- What follows an item: a comma, which may stand before the closing bracket, or the bracket. -/
def separator (close : Char) : Reader Unit := do
  let c ← peekToken
  if c = ',' then let _ ← next; pure ()
  else if c = close then pure ()
  else failure

/-- The items of an array whose bracket was read. -/
def items (item : Reader Value) : Nat → Reader (List Value)
  | 0 => failure
  | fuel + 1 => do
    if (← peekToken) = ']' then let _ ← next; pure []
    else
      let first ← item
      separator ']'
      return first :: (← items item fuel)

/-- A key. -/
def key : Reader String := do
  let c ← peekToken
  if c = '"' ∨ c = '\'' then let _ ← next; stringTail c else identifier

/-- The members of an object whose brace was read. -/
def members (value : Reader Value) : Nat → Object → Reader Object
  | 0, _ => failure
  | fuel + 1, found => do
    if (← peekToken) = '}' then let _ ← next; pure found
    else
      let name ← key
      if (← peekToken) ≠ ':' then failure
      else
        let _ ← next
        let content ← value
        separator '}'
        members value fuel (found.put name content)

/-- A value inside containers of which at most `depth` more may open. -/
def value : Nat → Reader Value
  | 0 => failure
  | depth + 1 => do
    match ← peekToken with
    | '{' => let _ ← next; return .object (← members (value depth) ((← get).length + 1) [])
    | '[' => let _ ← next; return .array (← items (value depth) ((← get).length + 1))
    | '"' => let _ ← next; return .string (← stringTail '"')
    | '\'' => let _ ← next; return .string (← stringTail '\'')
    | 'n' => word ['n', 'u', 'l', 'l']; pure .null
    | 't' => word ['t', 'r', 'u', 'e']; pure (.bool true)
    | 'f' => word ['f', 'a', 'l', 's', 'e']; pure (.bool false)
    | _ => number

/-- The value that a text denotes. A text opens no more containers than it has characters. -/
def read? (text : String) : Option Value := do
  let (found, rest) ← StateT.run (value (text.length + 1)) text.toList
  match ← skipGap .open rest with
  | [] => some found
  | _ => none

end EditorFormat.Json5
