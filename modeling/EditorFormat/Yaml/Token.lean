import EditorFormat.Yaml.Scalar
import EditorFormat.Yaml.Tag

/-!
# Tokens

The marks and scalars of a text, in order. Indentation is made explicit: a block starts where a
mark stands deeper than the block around it, and ends where a line stands less deep. A key that is
only recognised by the colon after it gets its mark before the node.
-/

namespace EditorFormat.Yaml

/-- How a scalar is written. -/
inductive Style where
  | plain
  | quoted
  | literal
  | folded
deriving DecidableEq, Repr

/-- A mark or a scalar. -/
inductive Token where
  | directive (directive : Directive)
  | documentStart
  | documentEnd
  | streamEnd
  | blockSequence
  | blockMapping
  | blockEnd
  | flowSequence
  | flowSequenceEnd
  | flowMapping
  | flowMappingEnd
  | blockEntry
  | flowEntry
  | key
  | value
  | alias (name : String)
  | anchor (name : String)
  | tag (tag : Tag)
  | scalar (text : String) (style : Style)
deriving DecidableEq, Repr

/-- A place where a key may have started. A key takes one line and at most 1024 characters. -/
structure PossibleKey where
  /-- The text cannot be read otherwise. -/
  isRequired : Bool
  /-- The number of tokens before it. -/
  position : Nat
  place : Place

/-- What the scanner knows. -/
structure Scanner where
  rest : Places
  /-- The column of the innermost block. -/
  indent : Int
  /-- The columns of the blocks around it. -/
  indents : List Int
  /-- The key that may have started in the innermost flow collection, or in the blocks. -/
  possibleKey : Option PossibleKey
  /-- The same for the flow collections around it and the blocks. -/
  outerKeys : List (Option PossibleKey)
  /-- Whether a key may start here. -/
  allowsKey : Bool
  /-- The tokens, the last one first. -/
  tokens : List Token

/-- A step of the scanner, which may fail. -/
abbrev Scan (α : Type) := StateT Scanner Option α

namespace Scanner

/-- Whether a flow collection is open. -/
def inFlow (scanner : Scanner) : Bool :=
  !scanner.outerKeys.isEmpty

/-- The column of the next character. -/
def column (scanner : Scanner) : Nat :=
  scanner.rest.column

/-- Start at the front of a text. -/
def start (places : Places) : Scanner where
  rest := places
  indent := -1
  indents := []
  possibleKey := none
  outerKeys := []
  allowsKey := true
  tokens := []

end Scanner

namespace Scan

/-- Add a token. -/
def emit (token : Token) : Scan Unit :=
  modify fun scanner => { scanner with tokens := token :: scanner.tokens }

/-- Insert a token after the first `position` ones. -/
def insertAt (position : Nat) (token : Token) : Scan Unit :=
  modify fun scanner =>
    let later := scanner.tokens.take (scanner.tokens.length - position)
    let earlier := scanner.tokens.drop (scanner.tokens.length - position)
    { scanner with tokens := later ++ token :: earlier }

/-- Skip characters. -/
def skip (count : Nat) : Scan Unit :=
  modify fun scanner => { scanner with rest := scanner.rest.drop count }

/-- Set where the text goes on. -/
def resume (rest : Places) : Scan Unit :=
  modify fun scanner => { scanner with rest }

/-- Set whether a key may start. -/
def allowKey (allowed : Bool) : Scan Unit :=
  modify fun scanner => { scanner with allowsKey := allowed }

/-- Give up a possible key. It must not be a required one. -/
def dropKey : Scan Unit := do
  match (← get).possibleKey with
  | some key => if key.isRequired then failure
  | none => pure ()
  modify fun scanner => { scanner with possibleKey := none }

/-- Note that a key may start here. -/
def noteKey : Scan Unit := do
  let scanner ← get
  if scanner.allowsKey then
    dropKey
    match scanner.rest with
    | [] => pure ()
    | place :: _ =>
      let isRequired := !scanner.inFlow && scanner.indent == place.column
      modify fun scanner =>
        { scanner with possibleKey := some ⟨isRequired, scanner.tokens.length, place⟩ }

/-- The key if it may still go on at a place. One that may not must not be a required one. -/
def fresh (place : Place) : Option PossibleKey → Option (Option PossibleKey)
  | none => some none
  | some key =>
    if key.place.line < place.line ∨ key.place.index + 1024 < place.index then
      if key.isRequired then none else some none
    else some (some key)

/-- Give up the keys that do not go on here. -/
def dropStaleKeys : Scan Unit := do
  let scanner ← get
  match scanner.rest with
  | [] => pure ()
  | place :: _ =>
    let possibleKey ← (fresh place scanner.possibleKey : Option _)
    let outerKeys ← (scanner.outerKeys.mapM (fresh place) : Option _)
    set { scanner with possibleKey, outerKeys }

/-- Open a block at a column if it is deeper than the innermost one. `open` adds its token. -/
def openBlock (column : Nat) (add : Scan Unit) : Scan Unit := do
  let scanner ← get
  if !scanner.inFlow ∧ scanner.indent < column then
    set { scanner with indent := column, indents := scanner.indent :: scanner.indents }
    add

/-- Close the blocks that are deeper than a column, given the columns around the innermost. -/
def closeBlocks (column : Int) : List Int → Scan Unit
  | [] => pure ()
  | outer :: indents => do
    if column < (← get).indent then
      modify fun scanner => { scanner with indent := outer, indents := indents }
      emit .blockEnd
      closeBlocks column indents

/-- Close the blocks that are deeper than a column. In a flow collection there are none. -/
def closeTo (column : Int) : Scan Unit := do
  let scanner ← get
  if !scanner.inFlow then closeBlocks column scanner.indents

/-- The text after blanks, comments and line ends, and whether a line end was among them. A tab is
a blank only where no key may start, and a line may start with a byte order mark. -/
def afterGap (inFlow : Bool) : Bool → Nat → Places → Bool × Places
  | allowsKey, 0, places => (allowsKey, places)
  | allowsKey, fuel + 1, places =>
    let isSkipped (c : Char) : Bool := c == ' ' || ((inFlow || !allowsKey) && c == '\t')
    match Places.dropComment (places.dropOrderMark.dropChars isSkipped) with
    | [] => (allowsKey, [])
    | place :: rest =>
      if isBreak place.char then afterGap inFlow (if inFlow then allowsKey else true) fuel rest
      else (allowsKey, place :: rest)

/-- Go to the next token. -/
def skipGap : Scan Unit :=
  modify fun scanner =>
    let (allowsKey, rest) :=
      afterGap scanner.inFlow scanner.allowsKey (scanner.rest.length + 1) scanner.rest
    { scanner with allowsKey, rest }

/-! ## The tokens -/

/-- The end of the text. -/
def streamEnd : Scan Unit := do
  closeTo (-1)
  dropKey
  emit .streamEnd

/-- A directive. -/
def directive : Scan Unit := do
  closeTo (-1)
  dropKey
  allowKey false
  let (found, rest) ← (directive? ((← get).rest.drop 1) : Option _)
  resume rest
  emit (.directive found)

/-- The start or end of a document. -/
def documentMark (token : Token) : Scan Unit := do
  closeTo (-1)
  dropKey
  allowKey false
  skip 3
  emit token

/-- The start of a flow collection. -/
def flowStart (token : Token) : Scan Unit := do
  noteKey
  modify fun scanner =>
    { scanner with possibleKey := none, outerKeys := scanner.possibleKey :: scanner.outerKeys }
  allowKey true
  skip 1
  emit token

/-- The end of a flow collection. -/
def flowEnd (token : Token) : Scan Unit := do
  dropKey
  modify fun scanner =>
    match scanner.outerKeys with
    | [] => scanner
    | key :: outer => { scanner with possibleKey := key, outerKeys := outer }
  allowKey false
  skip 1
  emit token

/-- The comma between the items of a flow collection. -/
def flowEntry : Scan Unit := do
  dropKey
  allowKey true
  skip 1
  emit .flowEntry

/-- The mark of an item in a block. -/
def blockEntry : Scan Unit := do
  let scanner ← get
  if !scanner.inFlow then
    if !scanner.allowsKey then failure
    openBlock scanner.column (emit .blockSequence)
  dropKey
  allowKey true
  skip 1
  emit .blockEntry

/-- The mark before a key. -/
def keyMark : Scan Unit := do
  let scanner ← get
  if !scanner.inFlow then
    if !scanner.allowsKey then failure
    openBlock scanner.column (emit .blockMapping)
  dropKey
  allowKey (!scanner.inFlow)
  skip 1
  emit .key

/-- The colon after a key. -/
def valueMark : Scan Unit := do
  let scanner ← get
  match scanner.possibleKey with
  | some key =>
    insertAt key.position .key
    openBlock key.place.column (insertAt key.position .blockMapping)
    modify fun scanner => { scanner with possibleKey := none }
    allowKey false
  | none =>
    if !scanner.inFlow then
      if !scanner.allowsKey then failure
      openBlock scanner.column (emit .blockMapping)
    allowKey (!scanner.inFlow)
  skip 1
  emit .value

/-- An anchor or alias. -/
def anchor (token : String → Token) : Scan Unit := do
  noteKey
  allowKey false
  let (name, rest) ← (anchorName? ((← get).rest.drop 1) : Option _)
  resume rest
  emit (token name)

/-- A tag. -/
def tag : Scan Unit := do
  noteKey
  allowKey false
  let scanner ← get
  let (found, rest) ← (tag? scanner.inFlow scanner.rest : Option _)
  resume rest
  emit (.tag found)

/-- A block scalar. -/
def blockScalar (folded : Bool) : Scan Unit := do
  dropKey
  allowKey true
  let scanner ← get
  let (text, rest) ← (block? folded scanner.indent (scanner.rest.drop 1) : Option _)
  resume rest
  emit (.scalar (String.ofList text) (if folded then .folded else .literal))

/-- A scalar between quotes. -/
def quotedScalar (quote : Char) : Scan Unit := do
  noteKey
  allowKey false
  let rest : Places := (← get).rest.drop 1
  let (text, rest) ← (quoted? quote (rest.length + 1) rest : Option _)
  resume rest
  emit (.scalar (String.ofList text) .quoted)

/-- A plain scalar. -/
def plainScalar : Scan Unit := do
  noteKey
  allowKey false
  let scanner ← get
  let found ← (plain? scanner.inFlow (scanner.indent + 1) scanner.rest : Option _)
  resume found.rest
  if found.endsLine then allowKey true
  emit (.scalar (String.ofList found.text) .plain)

/-- The characters that mark something other than a plain scalar. -/
def indicators : List Char :=
  ['-', '?', ':', ',', '[', ']', '{', '}', '#', '&', '*', '!', '|', '>', '\'', '"', '%', '@',
    '\x60']

/-- Whether a plain scalar may start here. -/
def startsPlain (inFlow : Bool) (places : Places) : Bool :=
  match places.char? 0 with
  | none => false
  | some c =>
    (!places.gapAt 0 && !indicators.contains c)
      || (c == '-' && !((places.char? 1).any isBlank))
      || (!inFlow && (c == '?' || c == ':') && !places.gapAt 1)

/-- The token that starts with a character. -/
def token (c : Char) : Scan Unit := do
  let scanner ← get
  let rest := scanner.rest
  let isMark := scanner.inFlow || rest.gapAt 1
  if c = '%' ∧ rest.column = 0 then directive
  else if rest.markedBy '-' then documentMark .documentStart
  else if rest.markedBy '.' then documentMark .documentEnd
  else if c = '[' then flowStart .flowSequence
  else if c = '{' then flowStart .flowMapping
  else if c = ']' then flowEnd .flowSequenceEnd
  else if c = '}' then flowEnd .flowMappingEnd
  else if c = ',' then flowEntry
  else if c = '-' ∧ rest.gapAt 1 then blockEntry
  else if c = '?' ∧ isMark then keyMark
  else if c = ':' ∧ isMark then valueMark
  else if c = '*' then anchor .alias
  else if c = '&' then anchor .anchor
  else if c = '!' then tag
  else if c = '|' ∧ !scanner.inFlow then blockScalar false
  else if c = '>' ∧ !scanner.inFlow then blockScalar true
  else if c = '\'' then quotedScalar '\''
  else if c = '"' then quotedScalar '"'
  else if startsPlain scanner.inFlow rest then plainScalar
  else failure

/-- All tokens up to the end of the text. -/
def all : Nat → Scan Unit
  | 0 => failure
  | fuel + 1 => do
    skipGap
    dropStaleKeys
    let scanner ← get
    match scanner.rest with
    | [] => streamEnd
    | place :: _ =>
      closeTo place.column
      token place.char
      all fuel

end Scan

/-- The tokens of a text. Every token takes a character. -/
def Token.ofPlaces? (places : Places) : Option (List Token) := do
  let (_, scanner) ← (Scan.all (places.length + 2)).run (Scanner.start places)
  return scanner.tokens.reverse

end EditorFormat.Yaml
