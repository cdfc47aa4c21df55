import EditorFormat.Editor.Command
import EditorFormat.Session.Responses

/-!
# What the user does in a session

The commands of the palette, the clicks on log entries, the closing of files and the changing of
settings.
-/

namespace EditorFormat

open Files (Action)

namespace Session

variable {σ : Type}

/-- A session with nothing open, nothing in the log and nothing under way. -/
def start (store : Store) (hasSideButtons : Bool) (format : Formatter σ) (mode : Mode σ)
    (timeout : Nat) : Session σ where
  store := store
  editor := .empty
  notifier := .start hasSideButtons
  log := .empty
  format := format
  mode := mode
  pending := []
  lastId := 0
  timeout := timeout

/-- Run a command on the file that the user is editing. Only formatting such a file has an
outcome. -/
def execute (session : Session σ) (around : Surroundings) (command : Command) :
    Option Disposition × Session σ :=
  match command, session.editor.active with
  | .showLogs, _ => (none, { session with notifier := session.notifier.post .showLog })
  | .formatSelection, none => (none, session)
  | .formatSelection, some id =>
    let (disposition, session) := session.formatSelection around id
    (some disposition, session)

/-- Go to the place that a log entry names, and close the log. Gives whether there is such a place
in an open file. -/
def openLogEntry (session : Session σ) (index : Nat) : Bool × Session σ :=
  match session.log.jumpTarget? index with
  | none => (false, session)
  | some (id, position) =>
    if session.editor.isOpen id then
      (true,
        { session with
          editor := (session.editor.activate id).moveCursor id position
          notifier := session.notifier.post .hideLog })
    else (false, session)

/-- Change one setting. -/
def set (session : Session σ) (name : String) (value : Json.Value) :
    Action StoreError (Session σ) := do
  let store ← session.store.set name value
  return { session with store }

end Session

end EditorFormat
