import EditorFormat.Json.Reader
import EditorFormat.Yaml.Place

/-!
# The texts of scalars

A scalar is plain, between quotes, or a block of indented lines. Its line ends are folded: one line
end is a space, and of several the first is dropped.
-/

namespace EditorFormat.Yaml

open Json.Reader (hexValue?)

/-- What blanks and line ends between two parts of a scalar stand for. Blanks that touch a line
end are dropped. After an escaped line end only the later ones count. -/
def fold (escaped : Bool) (gap : List Char) : List Char :=
  let breaks := gap.filter isBreak
  if escaped then breaks
  else
    match breaks with
    | [] => gap
    | '\n' :: [] => [' ']
    | '\n' :: more => more
    | breaks => breaks

/-- The blanks and line ends at the front. -/
def takeGap (places : Places) : List Char :=
  places.takeChars fun c => isBlank c || isBreak c

/-- The text after the blanks and line ends at its front. -/
def dropGap (places : Places) : Places :=
  places.dropChars fun c => isBlank c || isBreak c

/-! ## Quoted scalars -/

/-- The value of an escape of one character. -/
def escapeValue : Char → Option Nat
  | '0' => some 0x00
  | 'a' => some 0x07
  | 'b' => some 0x08
  | 't' => some 0x09
  | '\t' => some 0x09
  | 'n' => some 0x0A
  | 'v' => some 0x0B
  | 'f' => some 0x0C
  | 'r' => some 0x0D
  | 'e' => some 0x1B
  | ' ' => some 0x20
  | '"' => some 0x22
  | '/' => some 0x2F
  | '\\' => some 0x5C
  | 'N' => some 0x85
  | '_' => some 0xA0
  | 'L' => some 0x2028
  | 'P' => some 0x2029
  | _ => none

/-- The number of hexadecimal digits of an escape by code point. -/
def escapeLength : Char → Nat
  | 'x' => 2
  | 'u' => 4
  | 'U' => 8
  | _ => 0

/-- The character of an escape whose backslash was read, and the text after it. -/
def escape? : Places → Option (Char × Places)
  | [] => none
  | place :: rest =>
    let length := escapeLength place.char
    if length = 0 then (escapeValue place.char).map fun value => (Char.ofNat value, rest)
    else if rest.length < length then none
    else do
      let value ← hexValue? ((rest.take length).map (·.char))
      if (0xD800 ≤ value ∧ value ≤ 0xDFFF) ∨ 0x10FFFF < value then none
      else some (Char.ofNat value, rest.drop length)

/-- The text of a scalar whose opening quote was read, and what follows its closing quote. No line
of it may look like the start or end of a document. -/
def quoted? (quote : Char) : Nat → Places → Option (List Char × Places)
  | 0, _ => none
  | _, [] => none
  | fuel + 1, place :: rest => do
    let places := place :: rest
    if Places.atDocumentMark places then none
    else if place.char = quote then
      if quote = '\'' ∧ Places.startsWith rest quote then
        let (text, after) ← quoted? quote fuel (rest.drop 1)
        return (quote :: text, after)
      else some ([], rest)
    else if isBlank place.char || isBreak place.char then
      let (text, after) ← quoted? quote fuel (dropGap places)
      return (fold false (takeGap places) ++ text, after)
    else if quote = '"' ∧ place.char = '\\' then
      match rest with
      | [] => none
      | next :: later =>
        if isBreak next.char then
          let (text, after) ← quoted? quote fuel (dropGap later)
          return (fold true (takeGap later) ++ text, after)
        else
          let (c, after) ← escape? rest
          let (text, after) ← quoted? quote fuel after
          return (c :: text, after)
    else
      let (text, after) ← quoted? quote fuel rest
      return (place.char :: text, after)

/-! ## Plain scalars -/

/-- The indicators of flow collections, which end a plain scalar inside one. -/
def isFlowIndicator (c : Char) : Bool :=
  c == ',' || c == '[' || c == ']' || c == '{' || c == '}'

/-- The part of a plain scalar up to a gap or an indicator, and the text after it. -/
def plainWord? (inFlow : Bool) : Places → Option (List Char × Places)
  | [] => some ([], [])
  | place :: rest =>
    let ends :=
      isBlank place.char || isBreak place.char
        || (place.char == ':' && Places.gapAt rest 0) || (inFlow && isFlowIndicator place.char)
    let clash :=
      inFlow && place.char == ':'
        && ((Places.char? rest 0).any fun next => isFlowIndicator next || next == '?')
    if clash then none
    else if ends then some ([], place :: rest)
    else (plainWord? inFlow rest).map fun (word, after) => (place.char :: word, after)

/-- Whether a tab stands before column `indent` on a line after the first of a gap. -/
def tabInIndent (indent : Int) : Bool → Places → Bool
  | _, [] => false
  | afterBreak, place :: rest =>
    if isBreak place.char then tabInIndent indent true rest
    else if isBlank place.char then
      (afterBreak && place.char == '\t' && (place.column : Int) < indent)
        || tabInIndent indent afterBreak rest
    else false

/-- A plain scalar. -/
structure Plain where
  text : List Char
  /-- Whether it is followed by a line end that was skipped. -/
  endsLine : Bool
  rest : Places

/-- The parts of a plain scalar, each after the gap before it. It ends at an indicator, at
a comment, at the start or end of a document, and outside of flow collections at a line that is
indented less than `indent`. -/
def plainFrom? (inFlow : Bool) (indent : Int) : Nat → List Char → Places → Option Plain
  | 0, _, _ => none
  | fuel + 1, gap, places => do
    let stop : Plain := ⟨[], gap.any isBreak, places⟩
    if places.atDocumentMark ∨ places.startsWith '#' then some stop
    else
      let (word, after) ← plainWord? inFlow places
      let text := if word.isEmpty then [] else fold false gap ++ word
      let gap := if word.isEmpty then gap else []
      let next := takeGap after
      if next.isEmpty then some ⟨text, gap.any isBreak, after⟩
      else if tabInIndent indent false after then none
      else
        let rest := dropGap after
        if !inFlow ∧ (rest.column : Int) < indent then some ⟨text, next.any isBreak, rest⟩
        else
          let later ← plainFrom? inFlow indent fuel next rest
          return { later with text := text ++ later.text }

/-- The plain scalar at the front of the text. -/
def plain? (inFlow : Bool) (indent : Int) (places : Places) : Option Plain :=
  plainFrom? inFlow indent (places.length + 2) [] places

/-! ## Block scalars -/

/-- What happens to the line ends at the end of a block. -/
inductive Chomping where
  | strip
  | clip
  | keep
deriving DecidableEq

/-- The indicators at the start of a block scalar. -/
structure BlockHeader where
  chomping : Chomping
  /-- The indentation of the lines, relative to the block around them. -/
  increment : Option Nat

/-- How the line ends at the end of a block are marked. -/
def chomping? : Char → Option Chomping
  | '+' => some .keep
  | '-' => some .strip
  | _ => none

/-- The digit from one to nine. -/
def indentDigit? (c : Char) : Option Nat :=
  if '1' ≤ c ∧ c ≤ '9' then some (c.toNat - '0'.toNat) else none

/-- The indicators of a block scalar in either order, and the text after them. -/
def blockHeader? (places : Places) : Option (BlockHeader × Places) := do
  match (places.char? 0).bind chomping? with
  | some chomping =>
    let rest : Places := places.drop 1
    match rest.char? 0 with
    | some c =>
      if c = '0' then none
      else
        match indentDigit? c with
        | some digit => some (⟨chomping, some digit⟩, rest.drop 1)
        | none => some (⟨chomping, none⟩, rest)
    | none => some (⟨chomping, none⟩, rest)
  | none =>
    match places.char? 0 with
    | some c =>
      if c = '0' then none
      else
        match indentDigit? c with
        | some digit =>
          let rest : Places := places.drop 1
          match (rest.char? 0).bind chomping? with
          | some chomping => some (⟨chomping, some digit⟩, rest.drop 1)
          | none => some (⟨.clip, some digit⟩, rest)
        | none => some (⟨.clip, none⟩, places)
    | none => some (⟨.clip, none⟩, places)

/-- Empty lines of a block. -/
structure EmptyLines where
  breaks : List Char
  /-- The column of the deepest line seen. -/
  deepest : Nat
  rest : Places

/-- Skip the empty lines of a block and the indentation of the next one, up to column `indent` if
that is known. A tab may not stand in the indentation. -/
def emptyLines? (indent : Option Nat) : Nat → Nat → Places → Option EmptyLines
  | 0, _, _ => none
  | fuel + 1, deepest, places =>
    let inIndent (place : Place) : Bool := indent.all (place.column < ·)
    let after : Places := places.dropWhile fun place => inIndent place && place.char == ' '
    let deepest := max deepest after.column
    match after with
    | [] => some ⟨[], deepest, []⟩
    | place :: rest =>
      if inIndent place && place.char == '\t' then none
      else if isBreak place.char then
        (emptyLines? indent fuel deepest rest).map fun lines =>
          { lines with breaks := place.char :: lines.breaks }
      else some ⟨[], deepest, after⟩

/-- The lines of a block at column `indent`. `lineEnd` ended the line before, `breaks` are the
empty lines since then, and `wasBlank` tells whether that line started with a blank. Gives the
text with the line end and the empty lines that are left at the end. -/
def blockLines? (folded : Bool) (indent : Nat) : Nat → List Char → List Char → Bool → Places →
    Option (List Char × List Char × List Char × Places)
  | 0, _, _, _, _ => none
  | fuel + 1, lineEnd, breaks, wasBlank, places => do
    match places with
    | [] => some ([], lineEnd, breaks, [])
    | place :: _ =>
      if place.column ≠ indent then some ([], lineEnd, breaks, places)
      else
        let isBlankLine := isBlank place.char
        let joined :=
          if folded ∧ lineEnd = ['\n'] ∧ !wasBlank ∧ !isBlankLine then
            if breaks.isEmpty then [' '] else breaks
          else lineEnd ++ breaks
        let content := places.takeChars (!isBreak ·)
        let after := places.dropChars (!isBreak ·)
        let nextEnd := (after.take 1).map (·.char)
        let lines ← emptyLines? (some indent) (after.length + 1) 0 (after.drop 1)
        let (text, ending) ←
          blockLines? folded indent fuel nextEnd lines.breaks isBlankLine lines.rest
        return (joined ++ content ++ text, ending)

/-- The text of a block scalar whose first indicator was read, inside a block at column `indent`,
and what follows it. -/
def block? (folded : Bool) (indent : Int) (places : Places) : Option (List Char × Places) := do
  let (header, after) ← blockHeader? places
  let body ← after.dropLineEnd?
  let given := header.increment.map fun digit => (max indent 0).toNat + digit
  let first ← emptyLines? given (body.length + 1) 0 body
  let column := given.getD (max first.deepest (max (indent + 1) 1).toNat)
  let (text, lineEnd, breaks, rest) ←
    blockLines? folded column (body.length + 1) [] first.breaks false first.rest
  let ending := match header.chomping with
    | .strip => []
    | .clip => lineEnd
    | .keep => lineEnd ++ breaks
  return (text ++ ending, rest)

end EditorFormat.Yaml
