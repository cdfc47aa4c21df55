import EditorFormat.Json5.Reader
import EditorFormat.Options.FormatOptions
import EditorFormat.Text.Blank

/-!
# Options exported by a script

A script is never run. Its options are read when it exports a plain object literal, either in place
or through a binding that is declared with one. The export and the binding are recognised at the
start of a line; the literal is the balanced bracket that follows, and must be JSON5.
-/

namespace EditorFormat.Config.Script

open Json (Value Object DecodeError)
open Text (isBlank trimFront isWordChar)

/-- Why no options are read from a script. -/
inductive ScriptError where
  /-- Nothing is exported. -/
  | noExport
  /-- What is exported is no object literal. -/
  | notObject
  /-- What is exported is a name that is not bound to an object literal. -/
  | unboundName (name : String)
  /-- The object literal has no end. -/
  | unterminated
  /-- The object literal is not JSON5. -/
  | badLiteral
  /-- The object literal does not hold options. -/
  | mismatch (cause : DecodeError)
deriving Inhabited

/-- The wording of an error, given the words of the reader of JSON5 for a text that is none. -/
def ScriptError.message (words : String) : ScriptError → String
  | .noExport => "no \x60export default\x60 or \x60module.exports\x60 found"
  | .notObject => "exported value is not an object literal"
  | .unboundName name => "exported value \x60" ++ name ++ "\x60 is not an object literal"
  | .unterminated => "unterminated object literal"
  | .badLiteral => words
  | .mismatch cause => cause.message

/-! ## Finding the export -/

/-- The text after a given word at its front. -/
def afterWord (word : List Char) (text : List Char) : Option (List Char) :=
  if word.isPrefixOf text then some (text.drop word.length) else none

/-- The text after one or more blanks. -/
def afterBlanks (text : List Char) : Option (List Char) :=
  match text with
  | [] => none
  | c :: _ => if isBlank c then some (trimFront text) else none

/-- The first character of a name. -/
def isNameStart (c : Char) : Bool :=
  c.isAlpha || c == '_' || c == '$'

/-- A later character of a name. -/
def isNameChar (c : Char) : Bool :=
  c == '$' || isWordChar c

/-- The name at the front of a text, and the text after it. -/
def splitName (text : List Char) : Option (List Char × List Char) :=
  match text with
  | [] => none
  | c :: rest =>
    if isNameStart c then some (c :: rest.takeWhile isNameChar, rest.dropWhile isNameChar) else none

/-- The text after an equals sign with blanks on both sides. -/
def afterEquals (text : List Char) : Option (List Char) := do
  return trimFront (← afterWord ['='] (trimFront text))

/-- The text after a declaration `const name =`. -/
def afterConstant (text : List Char) : Option (List Char) := do
  let (_, rest) ← splitName (← afterBlanks (← afterWord "const".toList text))
  afterEquals rest

/-- The text after `export default` or `module.exports =` at its front. A declaration may stand
between the former and the value. -/
def afterExport (text : List Char) : Option (List Char) :=
  let line := trimFront text
  let default? := do
    let rest ← afterBlanks (← afterWord "export".toList line)
    let rest ← afterBlanks (← afterWord "default".toList rest)
    return (afterConstant rest).getD rest
  default? <|> do afterEquals (← afterWord "module.exports".toList line)

/-- The text after `const`, `let` or `var`, the name and an equals sign at its front. -/
def afterBinding (name text : List Char) : Option (List Char) := do
  let line := trimFront text
  let rest ← afterWord "const".toList line <|> afterWord "let".toList line
    <|> afterWord "var".toList line
  afterEquals (← afterWord name (← afterBlanks rest))

/-- The first success of `find` at the start of a line. -/
def atLineStart (find : List Char → Option (List Char)) : Bool → List Char → Option (List Char)
  | isStart, [] => if isStart then find [] else none
  | isStart, c :: rest =>
    (if isStart then find (c :: rest) else none) <|> atLineStart find (c == '\n') rest

/-- The text of the exported value and all that follows it. -/
def exported (text : List Char) : Except ScriptError (List Char) :=
  match atLineStart afterExport true text with
  | none => .error .noExport
  | some expression =>
    match splitName expression with
    | none => .ok expression
    | some (name, _) =>
      match atLineStart (afterBinding name) true text with
      | none => .error (.unboundName (String.ofList name))
      | some bound => .ok bound

/-! ## The object literal -/

/-- What a character of a script belongs to. -/
inductive Mode where
  | code
  | quoted (quote : Char)
  /-- After a backslash in a string. -/
  | escaped (quote : Char)
  | lineComment
  /-- In a block comment, and whether a star was just read. -/
  | blockComment (star : Bool)
deriving DecidableEq

/-- The shortest front part of the text at whose end no bracket is open, when `depth` brackets are
open before it. Brackets in strings and comments do not count, and any closing bracket closes any
opening one. -/
def balanced : Mode → Nat → List Char → Option (List Char)
  | _, _, [] => none
  | .code, depth, '/' :: '*' :: rest =>
    (balanced (.blockComment false) depth rest).map ('/' :: '*' :: ·)
  | .code, depth, '/' :: '/' :: rest => (balanced .lineComment depth rest).map ('/' :: '/' :: ·)
  | .code, depth, c :: rest =>
    if c = '"' ∨ c = '\'' ∨ c = '\x60' then (balanced (.quoted c) depth rest).map (c :: ·)
    else if c = '{' ∨ c = '[' then (balanced .code (depth + 1) rest).map (c :: ·)
    else if c = '}' ∨ c = ']' then
      if depth ≤ 1 then some [c] else (balanced .code (depth - 1) rest).map (c :: ·)
    else (balanced .code depth rest).map (c :: ·)
  | .quoted quote, depth, c :: rest =>
    let mode := if c = '\\' then Mode.escaped quote else if c = quote then .code else .quoted quote
    (balanced mode depth rest).map (c :: ·)
  | .escaped quote, depth, c :: rest => (balanced (.quoted quote) depth rest).map (c :: ·)
  | .lineComment, depth, c :: rest =>
    (balanced (if c = '\n' then .code else .lineComment) depth rest).map (c :: ·)
  | .blockComment star, depth, c :: rest =>
    let mode := if star && c = '/' then Mode.code else .blockComment (c = '*')
    (balanced mode depth rest).map (c :: ·)

/-- The object literal at the front of a text. -/
def objectLiteral (expression : List Char) : Except ScriptError (List Char) :=
  match expression with
  | '{' :: _ =>
    match balanced .code 0 expression with
    | some literal => .ok literal
    | none => .error .unterminated
  | _ => .error .notObject

/-! ## Its value -/

mutual

/-- Scripts have one type of numbers: a whole float below `2 ^ 53` is an integer. -/
def wholeNumbers : Value → Value
  | .float value =>
    if Decimal.isWhole value && value.abs < 9007199254740992.0 then .int (Decimal.wholePart value)
    else .float value
  | .array items => .array (wholeItems items)
  | .object members => .object (wholeMembers members)
  | other => other

/-- The items with whole floats as integers. -/
def wholeItems : List Value → List Value
  | [] => []
  | item :: rest => wholeNumbers item :: wholeItems rest

/-- The members with whole floats as integers. -/
def wholeMembers : List (String × Value) → List (String × Value)
  | [] => []
  | (key, value) :: rest => (key, wholeNumbers value) :: wholeMembers rest

end

/-- The options that a script exports. -/
def evaluate (text : String) : Except ScriptError FormatOptions := do
  let literal ← objectLiteral (← exported text.toList)
  match Json5.read? (String.ofList literal) with
  | none => throw .badLiteral
  | some (.object members) =>
    match FormatOptions.decode (wholeNumbers (.object members)) with
    | .ok options => pure options
    | .error cause => throw (.mismatch cause)
  | some _ => throw .notObject

end EditorFormat.Config.Script
