import EditorFormat.Proofs.Log.Locations
import EditorFormat.Proofs.Session.Selection

/-!
# Where a log entry leads

The formatter reports errors at places of the code that it was given. For a selection that code is
some lines of the document, and the log takes their rows for rows of the document: the entry of a
failed selection leads to the right place only when the selection begins in the first row
(`log_entry_jumps_into_code`). The entry of a failed document always does.
-/

namespace EditorFormat

open Text

namespace Job

/-- The row of the document in which the code of a job begins. -/
def firstRow (job : Job) : Nat :=
  job.selectionRange.elim 0 fun span => span.start.row

/-- The place in the document of a place in the code of a job, which is counted from one. -/
def placeInDocument (job : Job) (location : SourceLocation) : Position :=
  ⟨job.firstRow + location.line - 1, location.column - 1⟩

end Job

/-- A line of the code of a job is a line of the document. -/
theorem Scope.job_line (scope : Scope) (id : FileId) (file : OpenFile) (options : FormatOptions)
    {row : Nat} {line : List Char}
    (h : (Lines.split (scope.job id file options).code.toList)[row]? = some line) :
    (Lines.split file.text.toList)[(scope.job id file options).firstRow + row]? = some line := by
  have hdocument {row : Nat} (h : (Lines.split file.text.toList)[row]? = some line) :
      (Lines.split file.text.toList)[0 + row]? = some line := by rwa [Nat.zero_add]
  cases scope with
  | document => exact hdocument h
  | selection =>
    cases hexpand : file.selection.expand file.text with
    | none =>
      simp only [job, hexpand] at h ⊢
      exact hdocument h
    | some selected =>
      obtain ⟨span, code⟩ := selected
      simp only [job, hexpand] at h ⊢
      obtain ⟨⟨hrows, hlast⟩, rfl⟩ := Session.isLines_expand hexpand
      let selectedLines := ((Lines.split file.text.toList).drop span.start.row).take
        (span.stop.row + 1 - span.start.row)
      have hne : selectedLines ≠ [] := by
        refine List.ne_nil_of_length_pos ?_
        simp only [selectedLines, List.length_take, List.length_drop]
        omega
      have hsplit : Lines.split (Lines.join selectedLines) = selectedLines :=
        Lines.split_join hne fun line hline => Lines.newline_notMem_of_mem_split
          (List.mem_of_mem_drop (List.mem_of_mem_take hline))
      have hline : selectedLines[row]? = some line := by
        rw [← hsplit]
        simpa [Session.selectionJob] using h
      rw [List.getElem?_take] at hline
      split at hline
      · rwa [List.getElem?_drop] at hline
      · cases hline

namespace Session

variable {σ : Type}

/-- An error that comes back for an open file is the newest entry of the log. -/
theorem Delivers.fails {session before : Session σ} {around : Surroundings} {job : Job}
    {error : EngineError} {step : Disposition × Session σ}
    (h : session.Delivers around job (.error error) before step)
    (hopen : before.editor.isOpen job.fileId = true) :
    step.1 = .failed ∧ ∃ stamp, step.2.log.entries.head? =
      some ⟨job.fileId, job.fileName, .format, error.message, stamp⟩ := by
  cases h with
  | inPlace hmode houtcome =>
    rw [dispatch_inline hmode]
    simp only [houtcome]
    exact ⟨rfl, around.stamp, rfl⟩
  | @response number _ later hqueued hpending =>
    have hawaited := hpending.trans (pending_of_queued hqueued)
    have hdeliver : before.Deliverable (job.awaited around.now)
        ((job.message number).envelope.respond (.error error)) := ⟨rfl, hopen⟩
    rw [handleResponse_deliverable hawaited hdeliver]
    exact ⟨rfl, later.stamp, rfl⟩

/-- The file with its cursor at a place, and nothing selected. -/
def cursorAt (file : OpenFile) (position : Position) : OpenFile :=
  { file with cursor := position, selection := .caret position }

/-- A click on an entry of an open file leads to the place that the entry names. -/
theorem openLogEntry_jumps {session : Session σ} {index : Nat} {entry : LogEntry}
    {position : Position} {file : OpenFile} (hentry : session.log.entries[index]? = some entry)
    (htarget : entry.jumpTarget? = some position)
    (hfile : session.editor.file? entry.fileId = some file) :
    (session.openLogEntry index).1 = true ∧
      (session.openLogEntry index).2.editor.active = some entry.fileId ∧
      (session.openLogEntry index).2.editor.file? entry.fileId = some (cursorAt file position) := by
  have hjump : session.log.jumpTarget? index = some (entry.fileId, position) := by
    simp [ErrorLog.jumpTarget?, hentry, htarget]
  have hopen : session.editor.isOpen entry.fileId = true := Editor.isOpen_iff.2 ⟨file, hfile⟩
  have hactive : (session.editor.activate entry.fileId).file? entry.fileId = some file := by
    rwa [Editor.activate, if_pos hopen]
  simp only [openLogEntry, hjump, hopen, if_true]
  refine ⟨trivial, ?_, Editor.file?_modifyFile_self hactive _⟩
  rw [Editor.moveCursor, Editor.active_modifyFile, Editor.activate, if_pos hopen]

/-- An error that reports a place of the code of a job becomes an entry that leads to the place of
that name in the document. The code may begin in a later row of the document, and the entry leads to
the right place exactly when it begins in the first one, as that of a whole document does. A click
on the entry moves the cursor there while the file is open. -/
theorem log_entry_jumps_into_code {session before : Session σ} {around : Surroundings}
    {scope : Scope} {id : FileId} {file : OpenFile} {options : FormatOptions} {error : EngineError}
    {location : SourceLocation} {step : Disposition × Session σ}
    (hfile : session.editor.file? id = some file)
    (hoptions : session.optionsFor around file = .ok options)
    (hreports : location.Reports error.message) (hline : 0 < location.line)
    (hdelivers : session.Delivers around (scope.job id file options) (.error error) before step)
    (hopen : before.editor.isOpen id = true) :
    let job := scope.job id file options
    session.formatIn around scope id = session.dispatch around job ∧
      (∀ row line, (Lines.split job.code.toList)[row]? = some line →
        (Lines.split file.text.toList)[job.firstRow + row]? = some line) ∧
      step.1 = .failed ∧ ∃ entry, step.2.log.entries.head? = some entry ∧ entry.fileId = id ∧
        entry.message = error.message ∧ entry.jumpTarget? = some location.position ∧
        (location.position = job.placeInDocument location ↔ job.firstRow = 0) ∧
        (scope = .document → job.firstRow = 0) ∧
        ∀ (later : Session σ) (index : Nat) (current : OpenFile),
          later.log.entries[index]? = some entry → later.editor.file? id = some current →
          (later.openLogEntry index).1 = true ∧
            (later.openLogEntry index).2.editor.active = some id ∧
            (later.openLogEntry index).2.editor.file? id =
              some (cursorAt current location.position) := by
  intro job
  obtain ⟨hid, -⟩ := scope.job_file id file options
  have hdispatch : session.formatIn around scope id = session.dispatch around job := by
    rw [formatIn_open hfile, dispatchWith_ok hoptions]
  obtain ⟨hfailed, stamp, hnewest⟩ := hdelivers.fails (by rwa [hid])
  refine ⟨hdispatch, fun row line => scope.job_line id file options, hfailed, _, hnewest, hid, rfl,
    ?_⟩
  have htarget (fileName : String) :
      (⟨job.fileId, fileName, .format, error.message, stamp⟩ : LogEntry).jumpTarget? =
        some location.position := by
    simp [LogEntry.jumpTarget?, LogEntry.location?, SourceLocation.parse?_of_reports hreports]
  refine ⟨htarget _, ?_, ?_, fun later index current hentry hcurrent => ?_⟩
  · rw [Job.placeInDocument, SourceLocation.position, Position.mk.injEq]
    omega
  · rintro rfl
    rfl
  · have hjumps := openLogEntry_jumps hentry (htarget _) (hid ▸ hcurrent)
    rwa [hid] at hjumps

/-- A script with an error in its second line, which is marked. -/
def unfinishedScript : OpenFile :=
  ⟨"script.js", none, "let x\nx = (", ⟨0, 0⟩, ⟨⟨1, 0⟩, ⟨1, 5⟩⟩⟩

/-- The error as the formatter reports it, which is given the marked line only. -/
def unexpectedToken : EngineError :=
  .rejected "SyntaxError: Unexpected token (1:3)"

/-- A session with that script and that formatter. -/
def unfinished : Session Unit :=
  { start default false (fun _ _ => (.failed unexpectedToken, ())) (.inline ()) defaultTimeout with
    editor := Editor.empty.openFile "script" unfinishedScript }

/-- The message reports the third column of the first line. -/
theorem reports_unexpectedToken : SourceLocation.Reports unexpectedToken.message ⟨1, 3⟩ where
  text := by
    refine ⟨"SyntaxError: Unexpected token (".toList, [')'], by decide +kernel, ?_, ?_,
      by decide +kernel⟩
    · intro c hc
      obtain rfl : '(' = c := by simpa using hc
      decide +kernel
    · rintro c ⟨⟩
      decide +kernel
  line_lt := by decide
  column_lt := by decide

/-- The error of the marked line comes back at once. -/
theorem unfinished_delivers :
    let job := Scope.selection.job "script" unfinishedScript Settings.defaultOptions
    unfinished.Delivers default job (.error unexpectedToken) unfinished
      (unfinished.dispatch default job) :=
  .inPlace rfl rfl

/-- The error is in the second line of the script, and its entry leads to the first one. -/
theorem log_entry_jumps_into_marked_line :
    unfinished.editor.file? "script" = some unfinishedScript ∧
      unfinished.optionsFor default unfinishedScript = .ok Settings.defaultOptions ∧
      unfinished.editor.isOpen "script" = true ∧
      (unfinished.formatIn default .selection "script").1 = .failed ∧
      ((unfinished.formatIn default .selection "script").2.openLogEntry 0).2.editor.file? "script" =
        some (cursorAt unfinishedScript ⟨0, 2⟩) := by
  have hfile : unfinished.editor.file? "script" = some unfinishedScript := rfl
  have hoptions : unfinished.optionsFor default unfinishedScript =
      .ok Settings.defaultOptions := rfl
  obtain ⟨hformat, -, hfailed, entry, hnewest, -, -, -, -, -, hclick⟩ :=
    log_entry_jumps_into_code hfile hoptions reports_unexpectedToken (by decide)
      unfinished_delivers rfl
  obtain ⟨-, -, hcursor⟩ := hclick _ 0 unfinishedScript
    (List.head?_eq_getElem?.symm.trans hnewest) rfl
  rw [hformat]
  exact ⟨hfile, hoptions, rfl, hfailed, hcursor⟩

/-- Log entries lead to where errors are in the document. -/
def JumpsIntoDocument (session : Session σ) : Prop :=
  ∀ (around : Surroundings) (scope : Scope) (id : FileId) (file : OpenFile)
    (options : FormatOptions) (error : EngineError) (location : SourceLocation)
    (before : Session σ) (step : Disposition × Session σ),
    session.editor.file? id = some file → session.optionsFor around file = .ok options →
    location.Reports error.message → 0 < location.line →
    session.Delivers around (scope.job id file options) (.error error) before step →
    before.editor.isOpen id = true →
    ∃ entry, step.2.log.entries.head? = some entry ∧
      entry.jumpTarget? = some ((scope.job id file options).placeInDocument location)

/-- The row of the marked line is taken for a row of the document. -/
theorem marked_line_is_taken_for_first : ¬ unfinished.JumpsIntoDocument := by
  intro h
  obtain ⟨entry, hnewest, htarget⟩ := h default .selection "script" unfinishedScript
    Settings.defaultOptions unexpectedToken ⟨1, 3⟩ unfinished _ rfl rfl reports_unexpectedToken
    (by decide) unfinished_delivers rfl
  obtain rfl := Option.some.inj hnewest
  revert htarget
  decide +kernel

end Session

end EditorFormat
