/-!
# Notifications

What the user is shown besides the documents: the log view, short messages, and a button at the
side by which the log is opened. A notifier keeps what was shown, in order.
-/

namespace EditorFormat

/-- Something the user is shown. -/
inductive Notice where
  | showLog
  | hideLog
  | toast (message : String)
  | sideButton (visible : Bool)
deriving DecidableEq, Repr, Inhabited

/-- What the user was shown so far, and what is visible now. -/
structure Notifier where
  /-- The notices, the oldest first. -/
  notices : List Notice
  /-- Whether the editor has side buttons at all. -/
  hasSideButtons : Bool
  isLogVisible : Bool
  isSideButtonVisible : Bool
deriving DecidableEq, Repr, Inhabited

namespace Notifier

/-- Nothing was shown yet. -/
def start (hasSideButtons : Bool) : Notifier :=
  ⟨[], hasSideButtons, false, false⟩

/-- Show a notice. -/
def post (notifier : Notifier) (notice : Notice) : Notifier :=
  let notifier := { notifier with notices := notifier.notices ++ [notice] }
  match notice with
  | .showLog => { notifier with isLogVisible := true }
  | .hideLog => { notifier with isLogVisible := false }
  | .toast _ => notifier
  | .sideButton visible => { notifier with isSideButtonVisible := visible }

/-- The short messages, the oldest first. -/
def toasts (notifier : Notifier) : List String :=
  notifier.notices.filterMap fun
    | .toast message => some message
    | _ => none

/-- The hint where the side button opens the log. -/
def sideButtonHint : String :=
  "Error occurred while formatting code. Click on the side button to view logs."

/-- The hint where only the command palette opens the log. -/
def paletteHint : String :=
  "Error occurred while formatting code. Search for 'prettier logs' in the command palette to "
    ++ "view logs."

/-- The notice of a new failure, after the side button. -/
def failureNotice (notifier : Notifier) (opensLog : Bool) : Notice :=
  if opensLog then .showLog
  else .toast (if notifier.hasSideButtons then sideButtonHint else paletteHint)

/-- Tell the user about a new failure: show the side button, then the log or a hint at it. -/
def surface (notifier : Notifier) (opensLog : Bool) : Notifier :=
  (notifier.post (.sideButton true)).post (notifier.failureNotice opensLog)

end Notifier

end EditorFormat
