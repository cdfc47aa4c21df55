import EditorFormat.Options.FormatOptions

/-!
# Options of a request with its parser and file

What a formatter is called with: the options, the parser, the path of the file, and the place of
the cursor when it is to be tracked.
-/

namespace EditorFormat

/-- Options with a parser, a file path and perhaps a cursor. -/
structure CursorOptions where
  parser : String
  cursorOffset : Option Nat
  filepath : String
  options : FormatOptions
deriving Inhabited

namespace CursorOptions

/-- The text of an unknown key, or a default when the key is absent or no text. -/
def configured (options : FormatOptions) (key default : String) : String :=
  match options.extra.find? key with
  | some (.string text) => text
  | _ => default

/-- The options for a file. A parser or path in the options goes before the inferred one; either
key is taken out of the unknown keys. -/
def ofOptions (parser filepath : String) (options : FormatOptions) : CursorOptions where
  parser := configured options "parser" parser
  cursorOffset := none
  filepath := configured options "filepath" filepath
  options := { options with extra := (options.extra.remove "parser").remove "filepath" }

/-- Track the cursor at an offset. -/
def withCursorOffset (options : CursorOptions) (offset : Nat) : CursorOptions :=
  { options with cursorOffset := some offset }

/-- The members that are written. An unknown key `cursorOffset` is written after the field. -/
def members (options : CursorOptions) : List (String × Json.Value) :=
  [("parser", .string options.parser)]
    ++ (options.cursorOffset.map fun offset => ("cursorOffset", .ofNat offset)).toList
    ++ [("filepath", .string options.filepath)] ++ options.options.members

/-- The written form. -/
def encode (options : CursorOptions) : Json.Value :=
  .ofMembers options.members

/-- A record's own fields while they are read. -/
structure Draft where
  parser : Option String := none
  cursorOffset : Option Nat := none
  filepath : Option String := none

/-- The fields that are read before the options. -/
def shape : Json.Shape Draft where
  name := "CursorOptions"
  fields := [
    ⟨"parser", true, fun draft value =>
      return { draft with parser := some (← value.decodeText) }⟩,
    ⟨"cursorOffset", false, fun draft value =>
      return { draft with cursorOffset := ← value.decodeOptional Json.Value.decodeSize }⟩,
    ⟨"filepath", true, fun draft value =>
      return { draft with filepath := some (← value.decodeText) }⟩]

/-- Read the record from a value. -/
def decode (value : Json.Value) : Except Json.DecodeError CursorOptions := do
  let (draft, options) ← FormatOptions.decodeBeside shape {} value
  return ⟨draft.parser.getD "", draft.cursorOffset, draft.filepath.getD "", options⟩

end CursorOptions

end EditorFormat
