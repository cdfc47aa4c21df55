import EditorFormat.Json.Value
import EditorFormat.Json.Reader
import EditorFormat.Yaml.Node

/-!
# What scalars denote

A plain scalar is null, a boolean or a number when it is spelled like one, and a string otherwise.
Integers may have a sign and may be hexadecimal, octal or binary; digits after a leading zero are
a string.
-/

namespace EditorFormat.Yaml

open Json (Value)

/-- The text after a given start. -/
def after? (start : List Char) (text : List Char) : Option (List Char) :=
  if start.isPrefixOf text then some (text.drop start.length) else none

/-- Whether a scalar denotes null. An empty one does too. -/
def isNull (text : List Char) : Bool :=
  ["", "null", "Null", "NULL", "~"].contains (String.ofList text)

/-- The boolean that a scalar denotes. -/
def boolean? (text : List Char) : Option Bool :=
  let text := String.ofList text
  if ["true", "True", "TRUE"].contains text then some true
  else if ["false", "False", "FALSE"].contains text then some false
  else none

/-- The value of digits in a base. There must be one. -/
def digitsValue? (base : Nat) (digits : List Char) : Option Nat :=
  if digits.isEmpty then none
  else
    digits.foldlM
      (fun value c => do
        let digit ← Json.Reader.hexDigit? c
        if digit < base then some (value * base + digit) else none) 0

/-- Whether a text starts with a sign. -/
def isSigned (text : List Char) : Bool :=
  text.head?.any fun c => c == '+' || c == '-'

/-- Whether a text, after its sign, is a zero with more digits. Such a text is a string. -/
def hasLeadingZero (text : List Char) : Bool :=
  match if isSigned text then text.drop 1 else text with
  | '0' :: c :: rest => (c :: rest).all Char.isDigit
  | _ => false

/-- The magnitude of an integer without its sign, in one of the four bases, when it fits. -/
def magnitude? (fits : Nat → Bool) (text : List Char) : Option Nat :=
  let inBase (start : List Char) (base : Nat) : Option Nat := do
    let value ← digitsValue? base (← after? start text)
    if fits value then some value else none
  inBase ['0', 'x'] 16 <|> inBase ['0', 'o'] 8 <|> inBase ['0', 'b'] 2 <|> inBase [] 10

/-- The integer that a text denotes, when its magnitude fits. Negative integers have a limit of
their own. -/
def integerWith? (fits fitsNegative : Nat → Bool) (text : List Char) : Option Int :=
  match text with
  | '-' :: rest =>
    if isSigned rest || hasLeadingZero text then
      none
    else (magnitude? fitsNegative rest).map fun n => -(n : Int)
  | '+' :: rest =>
    if isSigned rest || hasLeadingZero text then none
    else (magnitude? fits rest).map Int.ofNat
  | _ => if hasLeadingZero text then none else (magnitude? fits text).map Int.ofNat

/-- An integer of 64 bits, signed or unsigned. -/
def integer? (text : List Char) : Option Int :=
  integerWith? (· < UInt64.size) (· ≤ UInt64.size / 2) text

/-- An integer of 128 bits, signed or unsigned. -/
def isWideInteger (text : List Char) : Bool :=
  (integerWith? (· < UInt64.size * UInt64.size) (· ≤ UInt64.size * UInt64.size / 2) text).isSome

/-- The exponent of a float, from its mark on; zero when there is none. -/
def exponent? : List Char → Option Int
  | [] => some 0
  | mark :: rest =>
    if mark = 'e' ∨ mark = 'E' then
      let digits := if isSigned rest then rest.drop 1 else rest
      if digits.all Char.isDigit then
        (digitsValue? 10 digits).map fun size =>
          if rest.head? = some '-' then -(size : Int) else size
      else none
    else none

/-- The magnitude of a float: digits with a point in or at the end of them, and an exponent. -/
def floatMagnitude? (text : List Char) : Option Float := do
  let whole := text.takeWhile Char.isDigit
  let (places, rest) := match text.dropWhile Char.isDigit with
    | '.' :: rest => (rest.takeWhile Char.isDigit, rest.dropWhile Char.isDigit)
    | rest => ([], rest)
  if whole.isEmpty ∧ places.isEmpty then none
  else
    let power ← exponent? rest
    let value := Decimal.ofDecimal (Nat.ofDigitChars 10 (whole ++ places) 0) (power - places.length)
    if value.isFinite then some value else none

/-- The number that is no integer which a text denotes. One that is not finite is null, and is only
written by its name. -/
def float? (text : List Char) : Option Value :=
  let name := String.ofList text
  let unsigned := if text.head? = some '+' then text.drop 1 else text
  if [".inf", ".Inf", ".INF", "+.inf", "+.Inf", "+.INF", "-.inf", "-.Inf", "-.INF", ".nan", ".NaN",
      ".NAN"].contains name then
    some .null
  else
    match unsigned with
    | '-' :: rest =>
      if text.head? = some '+' then none else (floatMagnitude? rest).map fun value => .float (-value)
    | _ => (floatMagnitude? unsigned).map .float

/-- The value of a plain scalar without a tag. An integer that needs more than 64 but no more than
128 bits is refused. -/
def plainValue? (text : List Char) : Option Value :=
  if isNull text then some .null
  else
    match boolean? text with
    | some value => some (.bool value)
    | none =>
      match integer? text with
      | some n => some (.int n)
      | none =>
        if isWideInteger text then none
        else
          match if hasLeadingZero text then none else float? text with
          | some value => some value
          | none => some (.string (String.ofList text))

/-- The full name of a standard tag. -/
def standardTag (name : String) : String :=
  "tag:yaml.org,2002:" ++ name

/-- Whether a tag is none of the standard ones but chosen by the author. -/
def isCustomTag (tag : Option String) : Bool :=
  tag.any fun name => name.toList.head? == some '!'

/-- The value of a scalar. Standard tags choose how it is read, custom ones are refused. -/
def scalarValue? (properties : Properties) (style : Style) (text : String) : Option Value :=
  let chars := text.toList
  match properties.tag with
  | none => if style = .plain then plainValue? chars else some (.string text)
  | some tag =>
    if isCustomTag (some tag) then none
    else if tag = standardTag "bool" then (boolean? chars).map .bool
    else if tag = standardTag "int" then (integer? chars).map .int
    else if tag = standardTag "float" then float? chars
    else if tag = standardTag "null" then
      if isNull chars ∧ !chars.isEmpty then some .null else none
    else some (.string text)

end EditorFormat.Yaml
