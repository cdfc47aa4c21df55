import EditorFormat.Decimal.Binary
import EditorFormat.Json.DecodeError
import EditorFormat.Json.Value

/-!
# Reading JSON text

A reader takes the text that is left and gives what it read with the text after it. It stops at
the first problem in the order of the text: the text is malformed there, or it ends too early, or
what was read so far is well formed but not what the record needs. Containers may nest 127 deep.
-/

namespace EditorFormat.Json

/-- Why a text was not read. -/
inductive ReadError where
  /-- The text is not JSON. -/
  | malformed
  /-- The text ends inside a value. -/
  | truncated
  /-- The text does not fit the record it is read for. -/
  | mismatch (cause : DecodeError)
deriving Inhabited

/-- A reader consumes a part of the text that is left. -/
abbrev Reader (α : Type) := StateT (List Char) (Except ReadError) α

namespace Reader

/-- The blanks between tokens. -/
def isBlank (c : Char) : Bool :=
  c == ' ' || c == '\n' || c == '\t' || c == '\r'

/-- Skip blanks. -/
def skipBlanks : Reader Unit :=
  modify (List.dropWhile isBlank)

/-- Skip blanks and look at the next character. The text must not end here. -/
def peekToken : Reader Char := do
  skipBlanks
  match ← get with
  | [] => throw .truncated
  | c :: _ => pure c

/-- Skip one character. -/
def advance : Reader Unit :=
  modify List.tail

/-- The next character. -/
def next : Reader Char := do
  match ← get with
  | [] => throw .truncated
  | c :: rest => set rest; pure c

/-- Read exactly the given characters. -/
def word : List Char → Reader Unit
  | [] => pure ()
  | expected :: later => do
    if (← next) = expected then word later else throw .malformed

/-- The digits at the front of the text. -/
def digits : Reader (List Char) := do
  let text ← get
  set (text.dropWhile Char.isDigit)
  pure (text.takeWhile Char.isDigit)

/-! ## Numbers -/

/-- The largest significand that is kept. -/
def largestSignificand : Nat := UInt64.size - 1

/-- Append decimal digits to a significand while it fits a 64-bit word. Gives the significand and
the number of digits that were appended. -/
def absorb : Nat → List Char → Nat × Nat
  | significand, [] => (significand, 0)
  | significand, c :: rest =>
    let longer := significand * 10 + (c.toNat - '0'.toNat)
    if largestSignificand < longer then (significand, 0)
    else
      let (total, count) := absorb longer rest
      (total, count + 1)

/-- The digits at the front of the text, of which there must be one. -/
def someDigits : Reader (List Char) := do
  match ← digits with
  | [] => if (← get).isEmpty then throw .truncated else throw .malformed
  | found => pure found

/-- The next character, if it is one of the given ones. -/
def oneOf (marks : List Char) : Reader (Option Char) := do
  match ← get with
  | c :: rest => if c ∈ marks then set rest; pure (some c) else pure none
  | [] => pure none

/-- The exponent after its mark. -/
def exponent : Reader Int := do
  let sign ← oneOf ['+', '-']
  let size : Int := Nat.ofDigitChars 10 (← someDigits) 0
  return if sign = some '-' then -size else size

/-- The digits before a point. Only a lone zero may be the first one. -/
def wholePart : Reader (List Char) := do
  match ← someDigits with
  | '0' :: _ :: _ => throw .malformed
  | found => pure found

/-- The digits after a point, if there is a point. -/
def fraction : Reader (Option (List Char)) := do
  match ← oneOf ['.'] with
  | some _ => some <$> someDigits
  | none => pure none

/-- The exponent with its mark, if there is a mark. -/
def power : Reader (Option Int) := do
  match ← oneOf ['e', 'E'] with
  | some _ => some <$> exponent
  | none => pure none

/-- The value of a whole literal. An integer of 64 bits stays one, except for minus zero. -/
def ofWhole (negative : Bool) (significand : Nat) : Value :=
  if negative then
    if 0 < significand ∧ significand ≤ UInt64.size / 2 then .int (-significand)
    else .float (-(Decimal.ofDecimal significand 0))
  else .int significand

/-- The value of a literal by its parts, unless it is too large for a float. It is whole when it has
neither a fraction nor an exponent and its digits fit a 64-bit word. -/
def ofParts (negative : Bool) (whole : List Char) (fraction : Option (List Char))
    (power : Option Int) : Option Value :=
  let (significand, kept) := absorb 0 whole
  let dropped := whole.length - kept
  if fraction.isNone ∧ power.isNone ∧ dropped = 0 then some (ofWhole negative significand)
  else
    let (longer, places) := absorb significand (fraction.getD [])
    (Decimal.scaled? longer ((dropped : Int) - places + power.getD 0)).map fun magnitude =>
      .float (if negative then -magnitude else magnitude)

/-- A number whose sign was read. -/
def unsignedNumber (negative : Bool) : Reader Value := do
  let whole ← wholePart
  let fraction ← fraction
  match ofParts negative whole fraction (← power) with
  | some value => pure value
  | none => throw .malformed

/-- A number. -/
def number : Reader Value := do
  let sign ← oneOf ['-']
  unsignedNumber sign.isSome

/-! ## Strings -/

/-- The value of a hexadecimal digit. -/
def hexDigit? (c : Char) : Option Nat :=
  if c.isDigit then some (c.toNat - '0'.toNat)
  else if 'a' ≤ c ∧ c ≤ 'f' then some (c.toNat - 'a'.toNat + 10)
  else if 'A' ≤ c ∧ c ≤ 'F' then some (c.toNat - 'A'.toNat + 10)
  else none

/-- The value of hexadecimal digits. -/
def hexValue? (digits : List Char) : Option Nat :=
  digits.foldlM (fun value c => (hexDigit? c).map (value * 16 + ·)) 0

/-- Four hexadecimal digits. With fewer than four bytes left the text has ended too early. -/
def hexUnit : Reader Nat := do
  let text ← get
  match text with
  | a :: b :: c :: d :: rest =>
    match hexValue? [a, b, c, d] with
    | some unit => set rest; pure unit
    | none => if (String.ofList text).utf8ByteSize < 4 then throw .truncated else throw .malformed
  | _ => if (String.ofList text).utf8ByteSize < 4 then throw .truncated else throw .malformed

/-- The character of an escaped code unit. A high surrogate must be followed by an escaped low
one. -/
def unicodeEscape : Reader Char := do
  let unit ← hexUnit
  if 0xDC00 ≤ unit ∧ unit ≤ 0xDFFF then throw .malformed
  else if 0xD800 ≤ unit ∧ unit ≤ 0xDBFF then
    word ['\\', 'u']
    let low ← hexUnit
    if 0xDC00 ≤ low ∧ low ≤ 0xDFFF then
      pure (Char.ofNat (0x10000 + (unit - 0xD800) * 0x400 + (low - 0xDC00)))
    else throw .malformed
  else pure (Char.ofNat unit)

/-- The character of an escape whose backslash was read. -/
def escape : Reader Char := do
  match ← next with
  | '"' => pure '"'
  | '\\' => pure '\\'
  | '/' => pure '/'
  | 'b' => pure '\x08'
  | 'f' => pure '\x0c'
  | 'n' => pure '\n'
  | 'r' => pure '\r'
  | 't' => pure '\t'
  | 'u' => unicodeEscape
  | _ => throw .malformed

/-- The characters up to the closing quote. -/
def stringChars : Nat → Reader (List Char)
  | 0 => throw .truncated
  | fuel + 1 => do
    match ← next with
    | '"' => pure []
    | '\\' => return (← escape) :: (← stringChars fuel)
    | c => if c.toNat < 0x20 then throw .malformed else return c :: (← stringChars fuel)

/-- A string whose opening quote was read. -/
def stringTail : Reader String := do
  return String.ofList (← stringChars ((← get).length + 1))

/-! ## Containers -/

/-- The items of an array whose bracket was read. -/
def items {α : Type} (item : Reader α) : Nat → Bool → Reader (List α)
  | 0, _ => throw .truncated
  | fuel + 1, isFirst => do
    match ← peekToken with
    | ']' => advance; pure []
    | c =>
      if !isFirst then
        if c = ',' then
          advance
          if (← peekToken) = ']' then throw .malformed
        else throw .malformed
      return (← item) :: (← items item fuel false)

/-- Read the members of an object whose brace was read, one `step` for each. A key is read by
`key`, after its opening quote; the step gets it and reads on from the colon. -/
def foldMembersBy {κ σ : Type} (key : Reader κ) (step : σ → κ → Reader σ) :
    Nat → Bool → σ → Reader σ
  | 0, _, _ => throw .truncated
  | fuel + 1, isFirst, state => do
    match ← peekToken with
    | '}' => advance; pure state
    | c =>
      if !isFirst then
        if c = ',' then advance else throw .malformed
      if (← peekToken) = '"' then
        advance
        foldMembersBy key step fuel false (← step state (← key))
      else throw .malformed

/-- Read the members of an object whose brace was read, one `step` for each. The step gets the key
and reads on from the colon. -/
def foldMembers {σ : Type} (step : σ → String → Reader σ) : Nat → Bool → σ → Reader σ :=
  foldMembersBy stringTail step

/-- The colon between a key and its value. -/
def colon : Reader Unit := do
  if (← peekToken) = ':' then advance else throw .malformed

/-- The number of containers that may be open at once, plus one. -/
def depthLimit : Nat := 128

/-- A value inside fewer than `depthLimit - depth` containers. -/
def value : Nat → Reader Value
  | 0 => throw .malformed
  | depth + 1 => do
    match ← peekToken with
    | 'n' => word ['n', 'u', 'l', 'l']; pure .null
    | 't' => word ['t', 'r', 'u', 'e']; pure (.bool true)
    | 'f' => word ['f', 'a', 'l', 's', 'e']; pure (.bool false)
    | '"' => advance; return .string (← stringTail)
    | '[' =>
      if depth = 0 then throw .malformed
      advance
      return .array (← items (value depth) ((← get).length + 1) true)
    | '{' =>
      if depth = 0 then throw .malformed
      advance
      let step (members : Object) (key : String) : Reader Object := do
        colon
        return members.put key (← value depth)
      return .object (← foldMembers step ((← get).length + 1) true [])
    | c => if c = '-' ∨ c.isDigit then number else throw .malformed

/-- Read a whole text: nothing but blanks may follow. -/
def run {α : Type} (reader : Reader α) (text : String) : Except ReadError α := do
  let (result, rest) ← StateT.run reader text.toList
  if (rest.dropWhile isBlank).isEmpty then pure result else throw .malformed

end Reader

/-- The value that a text denotes. -/
def Value.read (text : String) : Except ReadError Value :=
  Reader.run (Reader.value Reader.depthLimit) text

end EditorFormat.Json
