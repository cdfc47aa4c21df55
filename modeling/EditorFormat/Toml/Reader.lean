import EditorFormat.Toml.Scalar
import EditorFormat.Toml.Table

/-!
# Reading TOML text

A document is a list of lines with headers and with keys and their values. Values and names may
nest less than 80 deep.
-/

namespace EditorFormat.Toml

namespace Reader

/-- The number of values that may be open at once, plus one, and of the parts of a key. -/
def depthLimit : Nat := 80

/-- A character of a key without quotes. -/
def isKeyChar (c : Char) : Bool :=
  c.isAlphanum || c == '-' || c == '_'

/-- A part of a key. -/
def keyPart : Reader String := do
  match ← peek with
  | some c =>
    if c = '"' ∨ c = '\'' then
      word [c]
      return String.ofList (← stringChars c ((← get).length + 1))
    else
      let name ← takeWhile isKeyChar
      if name.isEmpty then failure else pure (String.ofList name)
  | none => failure

/-- The parts of a key, between points. -/
def keyParts : Nat → Reader (List String)
  | 0 => failure
  | fuel + 1 => do
    skipBlanks
    let part ← keyPart
    skipBlanks
    if ← optional ['.'] then return part :: (← keyParts fuel) else pure [part]

/-- A key: all its parts but the last, and the last. -/
def key : Reader (List String × String) := do
  let parts ← keyParts ((← get).length + 1)
  match parts.getLast? with
  | some last => if parts.length < depthLimit then pure (parts.dropLast, last) else failure
  | none => failure

/-- The items of an array whose bracket was read. -/
def items (value : Reader Value) : Nat → Reader (List Value)
  | 0 => failure
  | fuel + 1 => do
    skipGap
    if ← optional [']'] then pure []
    else
      let item ← value
      skipGap
      if ← optional [','] then return item :: (← items value fuel)
      else
        word [']']
        pure [item]

/-- The entries of an inline table whose brace was read. They stand on one line, and no comma
follows the last one. -/
def entries (value : Reader Value) : Nat → Table → Reader Table
  | 0, _ => failure
  | fuel + 1, table => do
    let (path, last) ← key
    word ['=']
    skipBlanks
    let content ← value
    skipBlanks
    let table ← (table.define path last content : Option Table)
    if ← optional [','] then entries value fuel table
    else
      word ['}']
      pure table

/-- A value inside containers of which less than `depth` more may open. -/
def value : Nat → Reader Value
  | 0 => failure
  | depth + 1 => do
    match ← peek with
    | some '[' =>
      if depth = 0 then failure
      word ['[']
      return .array (← items (value depth) ((← get).length + 1))
    | some '{' =>
      if depth = 0 then failure
      word ['{']
      skipBlanks
      if ← optional ['}'] then pure (.table [])
      else return (← entries (value depth) ((← get).length + 1) .empty).toValue
    | some '"' | some '\'' => return .string (← string)
    | some 't' => word "true".toList; pure (.bool true)
    | some 'f' => word "false".toList; pure (.bool false)
    | _ => numberOrTime

/-- A line of a document. -/
def line (document : Document) : Reader Document := do
  match ← get with
  | '#' :: _ | '\n' :: _ | '\r' :: _ => lineEnd; pure document
  | '[' :: '[' :: rest =>
    set rest
    let (path, last) ← key
    word [']', ']']
    lineEnd
    (document.startShared path last : Option Document)
  | '[' :: rest =>
    set rest
    let (path, last) ← key
    word [']']
    lineEnd
    (document.startTable path last : Option Document)
  | _ =>
    let (path, last) ← key
    word ['=']
    skipBlanks
    let content ← value depthLimit
    lineEnd
    (document.define path last content : Option Document)

/-- All lines of a document. -/
def lines : Nat → Document → Reader Document
  | 0, _ => failure
  | fuel + 1, document => do
    skipBlanks
    if (← get).isEmpty then pure document else lines fuel (← line document)

end Reader

/-- The table that a text denotes. A byte order mark at its start is dropped. -/
def read? (text : String) : Option (List (String × Value)) := do
  let chars := match text.toList with
    | '\ufeff' :: rest => rest
    | chars => chars
  let (document, _) ← StateT.run (Reader.lines (chars.length + 1) .empty) chars
  return Table.entriesToValues (← document.finish).entries

end EditorFormat.Toml
