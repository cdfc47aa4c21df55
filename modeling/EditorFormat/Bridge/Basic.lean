import EditorFormat.Bridge.Reply
import EditorFormat.Bridge.Script
import EditorFormat.Files.Path
import EditorFormat.Text.Blank
import EditorFormat.Text.Units
import EditorFormat.Text.Utf8

/-!
# Formatting by a program

A bridge runs a program once for each request. It writes the request as JSON, with offsets in
UTF-16 code units, and reads one reply, whose offsets it turns back into characters.
-/

namespace EditorFormat

open Files (Path)

/-- How a program is run. -/
structure Bridge where
  program : Path
  arguments : List String
  /-- The module that the program is told to import, if any. -/
  module? : Option String
deriving DecidableEq, Repr, Inhabited

namespace Bridge

/-- A program that runs the script. -/
def running (program : Path) : Bridge :=
  ⟨program, ["-e", script], none⟩

/-- The program that usually runs the script. -/
def usual : Bridge :=
  running "node"

/-- How a run of the program ends. -/
inductive Run where
  /-- The program cannot be started. -/
  | notStarted (cause : String)
  | exited (status : UInt8) (output errors : List UInt8)
deriving Inhabited

/-- The options with offsets in code units of the text. -/
def inUnits (code : String) (options : CursorOptions) : CursorOptions :=
  let toUnits (offset : Option UInt64) : Option UInt64 :=
    offset.map fun n => UInt64.ofNat (Text.toUnitOffset code n.toNat)
  let ranges := options.options
  let ranges := ranges.set .rangeStart (toUnits (ranges.get .rangeStart))
  let ranges := ranges.set .rangeEnd (toUnits (ranges.get .rangeEnd))
  { options with
    cursorOffset := options.cursorOffset.map (Text.toUnitOffset code)
    options := ranges }

/-- The result with its offset in characters of the formatted text. -/
def inCharacters : FormatResult → FormatResult
  | .withCursor text offset => .withCursor text (Text.ofUnitOffset text offset)
  | .plain text => .plain text

/-- What is written to the program. -/
def input (request : FormatRequest) : Json.Value :=
  .ofMembers [("code", .string request.code),
    ("options", (inUnits request.code request.options).encode),
    ("isSelection", .bool request.isSelection)]

/-- What a run of the program gives. A program that fails is only heard when it replies. -/
def outcome (bridge : Bridge) : Run → Outcome
  | .notStarted cause => .error (.notStarted bridge.program cause)
  | .exited status output errors =>
    if status ≠ 0 ∧ output = [] then
      .error (.badReply (bridge.program ++ " exited with exit status: " ++ toString status.toNat
        ++ ": " ++ Text.trim (Text.ofBytes errors)))
    else
      match Reply.read? output with
      | none => .error (.badReply ("<json>: " ++ Text.trim (Text.ofBytes output)))
      | some reply => reply.outcome.map inCharacters

/-- Format by the program, where `run` runs it on an input. -/
def format (bridge : Bridge) (run : Bridge → Json.Value → Run) (request : FormatRequest) :
    Outcome :=
  bridge.outcome (run bridge (input request))

end Bridge

end EditorFormat
