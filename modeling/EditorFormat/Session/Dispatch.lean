import EditorFormat.Config.Resolve
import EditorFormat.FileName
import EditorFormat.Session.Basic

/-!
# Formatting

A format command turns the state of the editor into a job, sends the job to the worker or runs it
in place, and puts the result into the document. A selection is formatted on its own, and the
result replaces the lines that it touches; a document is formatted as a whole, and the cursor moves
with the text.
-/

namespace EditorFormat

namespace Session

variable {σ : Type}

/-- A text without one newline at its end. -/
def dropFinalNewline (text : String) : String :=
  match text.toList.reverse with
  | '\n' :: before => String.ofList before.reverse
  | _ => text

/-- Put a result into an open file. -/
def putResult (editor : Editor) (id : FileId) (file : OpenFile) (selectionRange : Option Span)
    (result : FormatResult) : Editor :=
  match selectionRange with
  | some span => (editor.replace id span (dropFinalNewline result.text)).clearSelection id
  | none =>
    let editor := editor.replace id (.document file.text) result.text
    match result.cursorOffset? with
    | some offset => editor.moveCursor id (.ofOffset result.text offset)
    | none => editor

/-- Put the outcome of a call into the document, or record the failure. -/
def apply (session : Session σ) (around : Surroundings) (id : FileId) (fileName : String)
    (selectionRange : Option Span) :
    Except ErrorInfo FormatResult → Disposition × Session σ
  | .error error => session.fail ⟨id, fileName, .format, error.message, around.stamp⟩
  | .ok result =>
    match session.editor.file? id with
    | none => (.dropped, session)
    | some file =>
      let editor := putResult session.editor id file selectionRange result
      (.applied, { session with editor }.clearErrors id)

/-- Send a job to the worker, or run it in place. Every job gets a number of its own. -/
def dispatch (session : Session σ) (around : Surroundings) (job : Job) :
    Disposition × Session σ :=
  let id := session.lastId + 1
  let session := { session with lastId := id }
  let isSelection := job.selectionRange.isSome
  match session.mode with
  | .inline formatter =>
    let (reaction, formatter) := session.format formatter ⟨job.code, job.options, isSelection⟩
    { session with mode := .inline formatter }.apply around job.fileId job.fileName
      job.selectionRange (reaction.outcome.mapError EngineError.info)
  | .background worker =>
    let request : WorkerRequest :=
      ⟨id, job.fileId, job.code, job.options, isSelection, job.selectionRange⟩
    match worker.send? request with
    | none => session.fail ⟨job.fileId, job.fileName, .format, Worker.closedMessage, around.stamp⟩
    | some worker =>
      let waiting : PendingRequest :=
        ⟨job.fileId, job.fileName, job.selectionRange, around.now⟩
      (.queued id,
        { session with
          mode := .background worker
          pending := session.pending.put id waiting })

/-- The options for an open file: those of the project's config if there is one, and else those of
the user. The two are never mixed. -/
def optionsFor (session : Session σ) (around : Surroundings) (file : OpenFile) :
    Except Config.ConfigError FormatOptions :=
  match file.path with
  | none => .ok session.settings.options
  | some path => do
    match ← Config.resolve around.words around.files path session.editor.folders with
    | some config => pure config.options
    | none => pure session.settings.options

/-- Run a job for an open file with its options, or record that its config is not read. -/
def dispatchWith (session : Session σ) (around : Surroundings) (id : FileId) (file : OpenFile)
    (job : FormatOptions → Job) : Disposition × Session σ :=
  match session.optionsFor around file with
  | .error error => session.fail ⟨id, file.name, .config, error.message, around.stamp⟩
  | .ok options => session.dispatch around (job options)

/-- The job of formatting a whole document and tracking the cursor. -/
def documentJob (id : FileId) (file : OpenFile) (options : FormatOptions) : Job :=
  let options := CursorOptions.ofOptions (FileName.inferParser file.name) file.name options
  ⟨id, file.name, file.text, options.withCursorOffset (file.cursor.offset file.text), none⟩

/-- The job of formatting the lines of a span. -/
def selectionJob (id : FileId) (file : OpenFile) (span : Span) (code : String)
    (options : FormatOptions) : Job :=
  ⟨id, file.name, code,
    .ofOptions (FileName.inferParser file.name) file.name options.forSelection, some span⟩

/-- Format the whole document. -/
def formatDocument (session : Session σ) (around : Surroundings) (id : FileId) :
    Disposition × Session σ :=
  match session.editor.file? id with
  | none => (.dropped, session)
  | some file => session.dispatchWith around id file (documentJob id file)

/-- Format the selected lines, or the whole document when nothing is selected. -/
def formatSelection (session : Session σ) (around : Surroundings) (id : FileId) :
    Disposition × Session σ :=
  match session.editor.file? id with
  | none => (.dropped, session)
  | some file =>
    match file.selection.expand file.text with
    | none => session.formatDocument around id
    | some (span, code) => session.dispatchWith around id file (selectionJob id file span code)

end Session

end EditorFormat
