import EditorFormat.Json.Reader
import EditorFormat.Yaml.Place

/-!
# Tags, anchors and directives

The names that may stand before a node, and the lines that may stand before a document. A tag is
a handle with a suffix; directives give handles their meaning.
-/

namespace EditorFormat.Yaml

open Json.Reader (hexValue?)

/-- A character of a name. -/
def isNameChar (c : Char) : Bool :=
  c.isAlphanum || c == '_' || c == '-'

/-- A tag as it is written. An empty handle is for a tag that needs no directive. -/
structure Tag where
  handle : String
  suffix : String
deriving DecidableEq, Repr

/-- A directive before a document. -/
inductive Directive where
  | version (major minor : Nat)
  | tag (handle start : String)
deriving DecidableEq, Repr

/-- The name of an anchor or alias whose indicator was read, and the text after it. -/
def anchorName? (places : Places) : Option (String × Places) :=
  let name := places.takeChars isNameChar
  let rest := places.dropChars isNameChar
  let ends := rest.gapAt 0
    || (rest.char? 0).any fun c => ['?', ':', ',', ']', '}', '%', '@', '\x60'].contains c
  if name.isEmpty || !ends then none else some (String.ofList name, rest)

/-- The number of bytes of a character whose first byte is given. -/
def byteCount? (first : Nat) : Option Nat :=
  if first < 0x80 then some 1
  else if 0xC0 ≤ first ∧ first < 0xE0 then some 2
  else if 0xE0 ≤ first ∧ first < 0xF0 then some 3
  else if 0xF0 ≤ first ∧ first < 0xF8 then some 4
  else none

/-- An escaped byte, and the text after it. -/
def escapedByte? (places : Places) : Option (Nat × Places) := do
  match places with
  | percent :: high :: low :: rest =>
    if percent.char = '%' then return (← hexValue? [high.char, low.char], rest) else none
  | _ => none

/-- Escaped bytes after the first of a character. -/
def escapedTail? : Nat → Nat → Places → Option (Nat × Places)
  | 0, code, places => some (code, places)
  | count + 1, code, places => do
    let (byte, rest) ← escapedByte? places
    if 0x80 ≤ byte ∧ byte < 0xC0 then escapedTail? count (code * 64 + (byte - 0x80)) rest else none

/-- The least code point that needs a number of bytes. -/
def leastCode : Nat → Nat
  | 1 => 0
  | 2 => 0x80
  | 3 => 0x800
  | _ => 0x10000

/-- A character that is escaped byte by byte, and the text after it. -/
def escapedChar? (places : Places) : Option (Char × Places) := do
  let (first, rest) ← escapedByte? places
  let count ← byteCount? first
  let leading := match count with
    | 1 => first
    | 2 => first - 0xC0
    | 3 => first - 0xE0
    | _ => first - 0xF0
  let (code, rest) ← escapedTail? (count - 1) leading rest
  if code < leastCode count ∨ (0xD800 ≤ code ∧ code ≤ 0xDFFF) ∨ 0x10FFFF < code then none
  else some (Char.ofNat code, rest)

/-- A character of a tag's suffix. Some indicators are allowed between angle brackets only. -/
def isUriChar (verbatim : Bool) (c : Char) : Bool :=
  isNameChar c || ";/?:@&=+$.%!~*'()".toList.contains c
    || (verbatim && (c == ',' || c == '[' || c == ']'))

/-- The characters of a tag's suffix, and the text after it. -/
def uriChars? (verbatim : Bool) : Nat → Places → Option (List Char × Places)
  | 0, _ => none
  | _, [] => some ([], [])
  | fuel + 1, place :: rest => do
    if place.char = '%' then
      let (c, after) ← escapedChar? (place :: rest)
      let (text, after) ← uriChars? verbatim fuel after
      return (c :: text, after)
    else if isUriChar verbatim place.char then
      let (text, after) ← uriChars? verbatim fuel rest
      return (place.char :: text, after)
    else some ([], place :: rest)

/-- The suffix of a tag, and the text after it. -/
def uri? (verbatim : Bool) (places : Places) : Option (List Char × Places) :=
  uriChars? verbatim (places.length + 1) places

/-- The handle of a tag, and the text after it: a name between exclamation marks, of which the
last may be missing. -/
def handle? (places : Places) : Option (List Char × Places) :=
  if places.startsWith '!' then
    let name := Places.takeChars (places.drop 1) isNameChar
    let rest := Places.dropChars (places.drop 1) isNameChar
    if rest.startsWith '!' then some ('!' :: name ++ ['!'], rest.drop 1)
    else some ('!' :: name, rest)
  else none

/-- The tag between angle brackets whose start was read, and the text after it. -/
def verbatimTag? (places : Places) : Option (Tag × Places) := do
  let (suffix, rest) ← uri? true places
  if suffix.isEmpty ∨ !rest.startsWith '>' then none
  else some (⟨"", String.ofList suffix⟩, rest.drop 1)

/-- A tag without angle brackets, and the text after it. -/
def shortTag? (places : Places) : Option (Tag × Places) := do
  let (handle, rest) ← handle? places
  let (suffix, after) ← uri? false rest
  if 2 ≤ handle.length ∧ handle.getLast? = some '!' then
    if suffix.isEmpty then none
    else some (⟨String.ofList handle, String.ofList suffix⟩, after)
  else
    let suffix := handle.drop 1 ++ suffix
    if suffix.isEmpty then some (⟨"", "!"⟩, after)
    else some (⟨"!", String.ofList suffix⟩, after)

/-- The tag at the front of the text, and the text after it. A tag is followed by a gap, or by
a comma inside a flow collection. -/
def tag? (inFlow : Bool) (places : Places) : Option (Tag × Places) := do
  let (tag, rest) ←
    if places.char? 1 == some '<' then verbatimTag? (places.drop 2) else shortTag? places
  if rest.gapAt 0 ∨ (inFlow ∧ rest.startsWith ',') then some (tag, rest) else none

/-- A number of a version, and the text after it. -/
def versionNumber? (places : Places) : Option (Nat × Places) :=
  let digits := places.takeChars Char.isDigit
  if digits.isEmpty || 9 < digits.length then none
  else some (Nat.ofDigitChars 10 digits 0, places.dropChars Char.isDigit)

/-- The version of a directive whose name was read, and the text after it. -/
def version? (places : Places) : Option (Directive × Places) := do
  let (major, rest) ← versionNumber? (places.dropChars isBlank)
  if rest.startsWith '.' then
    let (minor, rest) ← versionNumber? (rest.drop 1)
    return (.version major minor, rest)
  else none

/-- The handle and its meaning of a directive whose name was read, and the text after it. -/
def tagMeaning? (places : Places) : Option (Directive × Places) := do
  let (handle, rest) ← handle? (places.dropChars isBlank)
  let isClosed := handle = ['!'] || (2 ≤ handle.length && handle.getLast? == some '!')
  if !isClosed ∨ !((rest.char? 0).any isBlank) then none
  else
    let (start, rest) ← uri? true (rest.dropChars isBlank)
    if start.isEmpty ∨ !rest.gapAt 0 then none
    else some (.tag (String.ofList handle) (String.ofList start), rest)

/-- The directive whose percent sign was read, and the text of the next line. -/
def directive? (places : Places) : Option (Directive × Places) := do
  let name := places.takeChars isNameChar
  let rest := places.dropChars isNameChar
  if !rest.gapAt 0 then none
  else
    let (directive, rest) ←
      if name = "YAML".toList then version? rest
      else if name = "TAG".toList then tagMeaning? rest
      else none
    return (directive, ← rest.dropLineEnd?)

end EditorFormat.Yaml
