import EditorFormat.Json.Reader

/-!
# Skimming JSON

A container is taken apart into the bytes of its parts. A part that nobody asks for need only be
well formed: its strings need not be UTF-8 nor its escapes characters, its numbers may be of any
size, and its containers may nest to any depth.

Skimming reads one character for each byte, so that a part's bytes are known from its characters.
-/

namespace EditorFormat.Json

namespace Reader

/-- Skip a string whose opening quote was read. -/
def skipString : Nat → Reader Unit
  | 0 => throw .truncated
  | fuel + 1 => do
    match ← next with
    | '"' => pure ()
    | '\\' =>
      let c ← next
      if c = 'u' then discard hexUnit
      else if c ∉ ['"', '\\', '/', 'b', 'f', 'n', 'r', 't'] then throw .malformed
      skipString fuel
    | c => if c.toNat < 0x20 then throw .malformed else skipString fuel

/-- Skip a number. -/
def skipNumber : Reader Unit := do
  if (← get).head? = some '-' then advance
  match ← digits with
  | [] | '0' :: _ :: _ => throw .malformed
  | _ => pure ()
  if (← get).head? = some '.' then
    advance
    if (← digits).isEmpty then throw .malformed
  if (← get).head? = some 'e' ∨ (← get).head? = some 'E' then
    advance
    discard exponent

/-- Skip a value. -/
def skipValue : Nat → Reader Unit
  | 0 => throw .truncated
  | fuel + 1 => do
    match ← peekToken with
    | 'n' => word ['n', 'u', 'l', 'l']
    | 't' => word ['t', 'r', 'u', 'e']
    | 'f' => word ['f', 'a', 'l', 's', 'e']
    | '"' => advance; skipString ((← get).length + 1)
    | '[' =>
      advance
      discard (items (skipValue fuel) ((← get).length + 1) true)
    | '{' =>
      advance
      let step (_ : Unit) (_ : Unit) : Reader Unit := do
        colon
        skipValue fuel
      foldMembersBy (skipString ((← get).length + 1)) step ((← get).length + 1) true ()
    | c => if c = '-' ∨ c.isDigit then skipNumber else throw .malformed

/-- The characters that a reader reads. -/
def reading (reader : Reader Unit) : Reader (List Char) := do
  let before ← get
  reader
  return before.take (before.length - (← get).length)

/-- The text of bytes that are given as characters. -/
def utf8 (bytes : List Char) : Reader String :=
  match String.fromUTF8? ⟨(bytes.map fun c => UInt8.ofNat c.toNat).toArray⟩ with
  | some text => pure text
  | none => throw .malformed

/-- The text of a value. -/
def valueText : Reader String := do
  skipBlanks
  utf8 (← reading (skipValue ((← get).length + 1)))

/-- A key whose opening quote was read. -/
def skimmedKey : Reader String := do
  let chars ← reading (skipString ((← get).length + 1))
  let (key, _) ← (StateT.run stringTail (← utf8 chars).toList : Except ReadError _)
  pure key

end Reader

/-- The parts of a container. What is asked for is the text of a value. -/
inductive Parts where
  | ofObject (members : List (String × String))
  | ofArray (items : List String)

namespace Parts

open Reader

/-- The parts of an object's members that have the given keys, in the order of the text. -/
def members (keys : List String) : Reader (List (String × String)) := do
  let step (found : List (String × String)) (key : String) :
      Reader (List (String × String)) := do
    colon
    if key ∈ keys then return found ++ [(key, ← valueText)]
    else
      skipValue ((← get).length + 1)
      pure found
  foldMembersBy skimmedKey step ((← get).length + 1) true []

/-- The parts of a container: of an object those with the given keys, of an array all. -/
def reader (keys : List String) : Reader Parts := do
  match ← peekToken with
  | '{' => advance; return .ofObject (← members keys)
  | '[' => advance; return .ofArray (← items valueText ((← get).length + 1) true)
  | _ => throw .malformed

/-- The parts of the container in a sequence of bytes. -/
def read? (keys : List String) (bytes : List UInt8) : Option Parts :=
  (Reader.run (reader keys)
    (String.ofList (bytes.map fun byte => Char.ofNat byte.toNat))).toOption

/-- The texts of the values of the given keys, one for each key. An array gives them in the order
of the keys, and may end early; an object may give each once. -/
def values? (keys : List String) : Parts → Option (List (Option String))
  | .ofArray items =>
    if items.length ≤ keys.length then
      some (items.map some ++ List.replicate (keys.length - items.length) none)
    else none
  | .ofObject members =>
    if (members.map Prod.fst).Nodup then some (keys.map fun key => members.lookup key) else none

end Parts

end EditorFormat.Json
