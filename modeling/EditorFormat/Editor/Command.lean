/-!
# Commands

The commands that the user finds in the command palette.
-/

namespace EditorFormat

/-- A command. -/
inductive Command where
  /-- Format the selected lines, or the whole file when nothing is selected. -/
  | formatSelection
  /-- Open the error log. -/
  | showLogs
deriving DecidableEq, Repr, Inhabited

/-- The keys of a command, by the kind of keyboard. -/
structure KeyBinding where
  win : String
  mac : String
deriving DecidableEq, Repr

namespace Command

/-- The commands in the order of the palette. -/
def all : List Command :=
  [.formatSelection, .showLogs]

/-- The name in the palette. -/
def name : Command → String
  | .formatSelection => "Prettier: Format Selection"
  | .showLogs => "Prettier Logs"

/-- What a command does, in a sentence. -/
def description : Command → String
  | .formatSelection => "Format the selection/all with Prettier."
  | .showLogs => "View logs of prettier errors."

/-- The keys of a command. -/
def keyBinding? : Command → Option KeyBinding
  | .formatSelection => some ⟨"Ctrl-Shift-F", "Cmd-Shift-F"⟩
  | .showLogs => none

/-- The command of a name. -/
def ofName? (name : String) : Option Command :=
  all.find? fun command => command.name = name

end Command

end EditorFormat
