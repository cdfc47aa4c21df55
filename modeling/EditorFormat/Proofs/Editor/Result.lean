import EditorFormat.Proofs.Text.Splice
import EditorFormat.Session.Dispatch

/-!
# A result in the editor

A result is put into one open file. `putResult_eq` states the new contents of that file, and
`putResult_touches_only` that nothing else in the editor is touched.
-/

namespace EditorFormat

/-- The file with a result put into it. A result for a span takes the place of what the span covers
now; a result for the document takes the place of the whole text, and the cursor follows it. -/
def OpenFile.withResult (file : OpenFile) (selectionRange : Option Span) (result : FormatResult) :
    OpenFile :=
  match selectionRange with
  | some span =>
    { file with
      text := span.replace file.text (Session.dropFinalNewline result.text)
      selection := .caret file.cursor }
  | none =>
    match result.cursorOffset? with
    | some offset =>
      let cursor := Position.ofOffset result.text offset
      { file with text := result.text, cursor, selection := .caret cursor }
    | none => { file with text := result.text }

/-- A result leaves the name and the place of a file alone. -/
theorem OpenFile.withResult_name_path (file : OpenFile) (selectionRange : Option Span)
    (result : FormatResult) :
    (file.withResult selectionRange result).name = file.name ∧
      (file.withResult selectionRange result).path = file.path := by
  unfold withResult
  cases selectionRange with
  | some span => exact ⟨rfl, rfl⟩
  | none => cases result.cursorOffset? <;> exact ⟨rfl, rfl⟩

/-- A result for the document is its new text. -/
theorem OpenFile.text_withResult_none (file : OpenFile) (result : FormatResult) :
    (file.withResult none result).text = result.text := by
  unfold withResult
  cases result.cursorOffset? <;> rfl

namespace Editor

/-- Two states of the editor differ at most in the text, the cursor and the selection of one open
file. -/
structure TouchesOnly (id : FileId) (before after : Editor) : Prop where
  others : ∀ other, other ≠ id → after.file? other = before.file? other
  itself : ∃ old new, before.file? id = some old ∧ after.file? id = some new ∧
    new.name = old.name ∧ new.path = old.path
  active : after.active = before.active
  folders : after.folders = before.folders

/-- A change that keeps the name and the place of a file touches only that file. -/
theorem modifyFile_touches_only {editor : Editor} {id : FileId} {file : OpenFile}
    (h : editor.file? id = some file) {change : OpenFile → OpenFile}
    (hname : (change file).name = file.name) (hpath : (change file).path = file.path) :
    TouchesOnly id editor (editor.modifyFile id change) where
  others _ hother := file?_modifyFile_of_ne editor hother change
  itself := ⟨file, change file, h, file?_modifyFile_self h change, hname, hpath⟩
  active := active_modifyFile ..
  folders := folders_modifyFile ..

end Editor

namespace Session

/-- Putting a result into an open file changes that file as a whole in one step. -/
theorem putResult_eq {editor : Editor} {id : FileId} {file : OpenFile}
    (h : editor.file? id = some file) (selectionRange : Option Span) (result : FormatResult) :
    putResult editor id file selectionRange result =
      editor.modifyFile id fun _ => file.withResult selectionRange result := by
  have hfile (change : OpenFile → OpenFile) :
      editor.modifyFile id change = editor.modifyFile id fun _ => change file := by
    simp only [Editor.modifyFile, h]
  unfold putResult OpenFile.withResult
  cases selectionRange with
  | some span =>
    simp only [Editor.replace, Editor.clearSelection, Editor.modifyFile_modifyFile]
    rw [hfile]
  | none =>
    cases result.cursorOffset? with
    | none =>
      simp only [Editor.replace]
      rw [hfile, Span.replace_document]
    | some offset =>
      simp only [Editor.replace, Editor.moveCursor, Editor.modifyFile_modifyFile]
      rw [hfile, Span.replace_document]

/-- The file that a result was put into. -/
theorem file?_putResult {editor : Editor} {id : FileId} {file : OpenFile}
    (h : editor.file? id = some file) (selectionRange : Option Span) (result : FormatResult) :
    (putResult editor id file selectionRange result).file? id =
      some (file.withResult selectionRange result) := by
  rw [putResult_eq h]
  exact Editor.file?_modifyFile_self h _

/-- Putting a result into a file touches only that file. -/
theorem putResult_touches_only {editor : Editor} {id : FileId} {file : OpenFile}
    (h : editor.file? id = some file) (selectionRange : Option Span) (result : FormatResult) :
    Editor.TouchesOnly id editor (putResult editor id file selectionRange result) := by
  obtain ⟨hname, hpath⟩ := file.withResult_name_path selectionRange result
  rw [putResult_eq h]
  exact Editor.modifyFile_touches_only h hname hpath

end Session

end EditorFormat
