import EditorFormat.Files.Path
import EditorFormat.Text.Selection
import EditorFormat.Worker.Message

/-!
# The editor

The editor holds the open files, each with its text, cursor and selection, knows which of them the
user is editing, and lists the folders that are open as projects.
-/

namespace EditorFormat

open Files (Path)

/-- An open file. -/
structure OpenFile where
  name : String
  /-- The place on disk, unless the file was never saved. -/
  path : Option Path
  text : String
  cursor : Position
  selection : Selection
deriving DecidableEq, Repr, Inhabited

/-- The state of the editor. -/
structure Editor where
  files : Entries FileId OpenFile
  /-- The file that the user is editing. -/
  active : Option FileId
  /-- The folders that are open as projects. -/
  folders : List Path
deriving DecidableEq, Repr, Inhabited

namespace Editor

/-- An editor without files. -/
def empty : Editor :=
  ⟨[], none, []⟩

/-- An open file by its id. -/
def file? (editor : Editor) (id : FileId) : Option OpenFile :=
  editor.files.find? id

/-- Whether a file is open. -/
def isOpen (editor : Editor) (id : FileId) : Bool :=
  editor.files.hasKey id

/-- Open a file and edit it. -/
def openFile (editor : Editor) (id : FileId) (file : OpenFile) : Editor :=
  { editor with files := editor.files.put id file, active := some id }

/-- Close a file. -/
def closeFile (editor : Editor) (id : FileId) : Editor :=
  { editor with
    files := editor.files.remove id
    active := if editor.active = some id then none else editor.active }

/-- Edit an open file. -/
def activate (editor : Editor) (id : FileId) : Editor :=
  if editor.isOpen id then { editor with active := some id } else editor

/-- Open a folder as a project. -/
def addFolder (editor : Editor) (folder : Path) : Editor :=
  { editor with folders := editor.folders ++ [folder] }

/-- Change an open file. A file that is not open stays so. -/
def modifyFile (editor : Editor) (id : FileId) (change : OpenFile → OpenFile) : Editor :=
  match editor.file? id with
  | none => editor
  | some file => { editor with files := editor.files.put id (change file) }

/-- Replace the text of a span. -/
def replace (editor : Editor) (id : FileId) (span : Span) (replacement : String) : Editor :=
  editor.modifyFile id fun file => { file with text := span.replace file.text replacement }

/-- Move the cursor, and with it the selection. -/
def moveCursor (editor : Editor) (id : FileId) (position : Position) : Editor :=
  editor.modifyFile id fun file =>
    { file with cursor := position, selection := .caret position }

/-- Collapse the selection to the cursor. -/
def clearSelection (editor : Editor) (id : FileId) : Editor :=
  editor.modifyFile id fun file => { file with selection := .caret file.cursor }

/-- A file is open when it is found by its id. -/
theorem isOpen_iff {editor : Editor} {id : FileId} :
    editor.isOpen id = true ↔ ∃ file, editor.file? id = some file :=
  Option.isSome_iff_exists

/-- A file is not open when it is not found by its id. -/
theorem isOpen_eq_false_iff {editor : Editor} {id : FileId} :
    editor.isOpen id = false ↔ editor.file? id = none :=
  Option.isSome_eq_false_iff.trans Option.isNone_iff_eq_none

/-- A changed file is found with its change. -/
theorem file?_modifyFile_self {editor : Editor} {id : FileId} {file : OpenFile}
    (h : editor.file? id = some file) (change : OpenFile → OpenFile) :
    (editor.modifyFile id change).file? id = some (change file) := by
  rw [modifyFile, h]
  exact Entries.find?_put_self ..

/-- Changing one file leaves the others alone. -/
theorem file?_modifyFile_of_ne (editor : Editor) {id other : FileId} (h : other ≠ id)
    (change : OpenFile → OpenFile) :
    (editor.modifyFile id change).file? other = editor.file? other := by
  unfold modifyFile
  split
  · rfl
  · exact Entries.find?_put_of_ne _ _ h

@[simp] theorem active_modifyFile (editor : Editor) (id : FileId)
    (change : OpenFile → OpenFile) : (editor.modifyFile id change).active = editor.active := by
  unfold modifyFile
  split <;> rfl

@[simp] theorem folders_modifyFile (editor : Editor) (id : FileId)
    (change : OpenFile → OpenFile) : (editor.modifyFile id change).folders = editor.folders := by
  unfold modifyFile
  split <;> rfl

/-- Two changes of one file are one change. -/
theorem modifyFile_modifyFile (editor : Editor) (id : FileId)
    (first second : OpenFile → OpenFile) :
    (editor.modifyFile id first).modifyFile id second =
      editor.modifyFile id fun file => second (first file) := by
  cases h : editor.file? id with
  | none => simp [modifyFile, h]
  | some file =>
    have hfirst := file?_modifyFile_self h first
    rw [modifyFile, hfirst]
    simp only [modifyFile, h, Entries.put_put]

end Editor

end EditorFormat
