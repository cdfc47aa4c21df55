import EditorFormat.Json.Reader
import EditorFormat.Options.FormatOptions

/-!
# Options in JSON text

Options are read from JSON text member by member, so the first problem in the text is the one that
is reported, be it of the text or of an option's value. A known option may be given once.
-/

namespace EditorFormat.Config

open Json (Reader Value Expected)
open Json.Reader

/-- Fail for a value that is not of the wanted type. A string, number or word is read before it is
reported, a container is not. -/
def mismatch {α : Type} (expected : Expected) : Reader α := do
  let wrong (found : Json.Found) : Reader α := throw (.mismatch (.wrongType found expected))
  match ← peekToken with
  | 'n' => word ['n', 'u', 'l', 'l']; wrong .null
  | 't' => word ['t', 'r', 'u', 'e']; wrong (.boolean true)
  | 'f' => word ['f', 'a', 'l', 's', 'e']; wrong (.boolean false)
  | '"' => advance; wrong (.text (← stringTail))
  | '[' => wrong .sequence
  | '{' => wrong .map
  | c => if c = '-' ∨ c.isDigit then wrong (← number).found else throw .malformed

/-- The result of a decision about a value that was read. -/
def decided {α : Type} : Except Json.DecodeError α → Reader α
  | .ok result => pure result
  | .error cause => throw (.mismatch cause)

/-- A number that is read as an option of the given type. -/
def wholeNumber (type : OptionType) (expected : Expected) : Reader type.Value := do
  let c ← peekToken
  if c = '-' ∨ c.isDigit then decided (type.decode (← number)) else mismatch expected

/-- A choice: its name, or an object with the name as its only key and a null value. -/
def choice (names : List String) : Reader { name : String // name ∈ names } := do
  match ← peekToken with
  | '"' =>
    advance
    decided (OptionType.choose names (← stringTail))
  | '{' =>
    advance
    if (← peekToken) ≠ '"' then mismatch .choiceName
    else
      advance
      let chosen ← decided (OptionType.choose names (← stringTail))
      colon
      if (← peekToken) ≠ 'n' then mismatch .nothing
      else
        word ['n', 'u', 'l', 'l']
        if (← peekToken) = '}' then advance; pure chosen else throw .malformed
  | _ => throw .malformed

/-- A value of an option. -/
def optionValue : (type : OptionType) → Reader type.Value
  | .flag => do
    match ← peekToken with
    | 't' => word ['t', 'r', 'u', 'e']; pure true
    | 'f' => word ['f', 'a', 'l', 's', 'e']; pure false
    | _ => mismatch .boolean
  | .width => wholeNumber .width .word32
  | .offset => wholeNumber .offset .size
  | .choice names => choice names

/-- A value of an option, or null to leave it unset. -/
def optional (type : OptionType) : Reader (Option type.Value) := do
  if (← peekToken) = 'n' then word ['n', 'u', 'l', 'l']; pure none
  else some <$> optionValue type

/-- Read the member of a key. -/
def member (state : List OptionKey × FormatOptions) (name : String) :
    Reader (List OptionKey × FormatOptions) := do
  let (seen, options) := state
  match OptionKey.ofName? name with
  | some key =>
    if seen.contains key then throw (.mismatch (.repeatedField name))
    colon
    return (key :: seen, options.set key (← optional key.type))
  | none =>
    colon
    let value ← Reader.value (depthLimit - 1)
    return (seen, { options with extra := options.extra.put name value })

/-- Options from the front of the text. -/
def optionsReader : Reader FormatOptions := do
  if (← peekToken) = '{' then
    advance
    let (_, options) ← foldMembers member ((← get).length + 1) true ([], .empty)
    pure options
  else mismatch (.record "FormatOptions")

/-- The options in a JSON text. -/
def ofJson (text : String) : Except Json.ReadError FormatOptions :=
  Reader.run optionsReader text

end EditorFormat.Config
