import EditorFormat.Proofs.Session.Delivery
import EditorFormat.Session.Commands

/-!
# Formatting selected lines

A selection that is not empty stands for the whole lines it touches. They are formatted on their
own, and the result comes between the lines before and after them (`selected_lines_replaced`).
The formatter ends a text with a newline, which the last selected line has already, so one newline
at the end of the result is left out.
-/

namespace EditorFormat

open Text

/-- A text and what is left of it without exactly one newline at its end, if it has one. -/
def Chomps (text body : String) : Prop :=
  text = body ++ "\n" ∨ text = body ∧ ∀ shorter, text ≠ shorter ++ "\n"

namespace Session

variable {σ : Type}

/-- A newline at the end is dropped. -/
@[simp] theorem dropFinalNewline_append (body : String) :
    dropFinalNewline (body ++ "\n") = body := by
  simp [dropFinalNewline]

/-- Nothing but one newline at the end is dropped. -/
theorem chomps_dropFinalNewline (text : String) : Chomps text (dropFinalNewline text) := by
  by_cases hends : ∃ body, text = body ++ "\n"
  · obtain ⟨body, rfl⟩ := hends
    exact .inl (by rw [dropFinalNewline_append])
  · refine .inr ⟨?_, fun shorter h => hends ⟨shorter, h⟩⟩
    unfold dropFinalNewline
    split
    · rename_i before hreverse
      refine absurd ⟨String.ofList before.reverse, ?_⟩ hends
      rw [← String.toList_inj, ← List.reverse_inj, hreverse]
      simp
    · rfl

/-- Lines of a file were replaced by a result: the lines before the span stay, then comes the result
without a newline at its end, and then the lines after the span. The cursor stays where it is and
nothing is selected any more. -/
structure LinesReplaced (span : Span) (result : String) (before after : OpenFile) : Prop where
  text : ∃ body, Chomps result body ∧ after.text = .ofList (Lines.join
    ((Lines.split before.text.toList).take span.start.row ++
      body.toList :: (Lines.split before.text.toList).drop (span.stop.row + 1)))
  cursor : after.cursor = before.cursor
  selection : after.selection = .caret before.cursor

/-- A code is the text of some lines of a document, joined by newlines. -/
structure IsLines (text : String) (span : Span) (code : String) : Prop where
  rows : span.start.row ≤ span.stop.row ∧ span.stop.row < (Lines.split text.toList).length
  code : code = .ofList (Lines.join (((Lines.split text.toList).drop span.start.row).take
    (span.stop.row + 1 - span.start.row)))

/-- What an expanded selection gives is the text of its lines. -/
theorem isLines_expand {text code : String} {selection : Selection} {span : Span}
    (h : selection.expand text = some (span, code)) : IsLines text span code := by
  obtain ⟨before, middle, line, later, hcut, rfl, rfl⟩ := Span.cut_expand h
  refine ⟨?_, ?_⟩
  · simp only [Span.ofRows, hcut, List.length_append, List.length_cons]
    omega
  · have hcount : before.length + middle.length + 1 - before.length =
        (middle ++ [line]).length := by
      rw [List.length_append, List.length_singleton]
      omega
    have hrows : middle ++ line :: later = (middle ++ [line]) ++ later := by simp
    simp only [Span.ofRows]
    rw [hcount, hcut, List.drop_left, hrows, List.take_left]

/-- A result for expanded lines replaces these lines. -/
theorem withResult_replaces_lines {file : OpenFile} {code : String} {selection : Selection}
    {span : Span} (h : selection.expand file.text = some (span, code)) (result : FormatResult) :
    LinesReplaced span result.text file (file.withResult (some span) result) := by
  obtain ⟨before, middle, line, later, hcut, rfl, rfl⟩ := Span.cut_expand h
  refine ⟨⟨dropFinalNewline result.text, chomps_dropFinalNewline result.text, ?_⟩, rfl, rfl⟩
  have hbefore : (Lines.split file.text.toList).take before.length = before := by
    rw [hcut, List.take_left]
  have hcount : before.length + middle.length + 1 = (before ++ (middle ++ [line])).length := by
    simp only [List.length_append, List.length_singleton]
    omega
  have hlater : (Lines.split file.text.toList).drop (before.length + middle.length + 1) =
      later := by
    have hrows : before ++ (middle ++ line :: later) = (before ++ (middle ++ [line])) ++ later := by
      simp
    rw [hcount, hcut, hrows, List.drop_left]
  simp only [Span.ofRows, hbefore, hlater]
  exact Span.replace_ofRows hcut _

/-- The selected lines with a newline after them put back what was there. -/
theorem withResult_same_lines {file : OpenFile} {code : String} {selection : Selection}
    {span : Span} (h : selection.expand file.text = some (span, code)) {result : FormatResult}
    (hresult : result.text = code ++ "\n") :
    (file.withResult (some span) result).text = file.text := by
  obtain ⟨before, after, hold, hnew⟩ := span.replace_eq_splice file.text
  rw [Span.covered_expand h] at hold
  have htext : (file.withResult (some span) result).text = before ++ code ++ after := by
    simp only [OpenFile.withResult, hresult, dropFinalNewline_append, hnew]
  rw [htext, ← hold]

/-- Formatting a selection that is not empty, forward or reversed, inside or outside the document,
replaces exactly the lines that it touches. The formatter is handed these lines, in place or in
the background. Whatever it returns is put between the lines before and after them when its result
comes back to the same text: the cursor stays, the selection collapses to it, and no other file is
touched. The lines with a newline after them leave the text as it is. -/
theorem selected_lines_replaced {session : Session σ} {around : Surroundings} {id : FileId}
    {file : OpenFile} {options : FormatOptions} (hfile : session.editor.file? id = some file)
    (hselection : file.selection.isEmpty = false)
    (hoptions : session.optionsFor around file = .ok options) :
    ∃ span code, file.selection.expand file.text = some (span, code) ∧
      IsLines file.text span code ∧
      session.formatSelection around id =
        session.dispatch around (selectionJob id file span code options) ∧
      ∀ result before step current,
        session.Delivers around (selectionJob id file span code options) (.ok result) before step →
        before.editor.file? id = some current → current.text = file.text →
        step.1 = .applied ∧ Editor.TouchesOnly id before.editor step.2.editor ∧
          ∃ after, step.2.editor.file? id = some after ∧
            LinesReplaced span result.text current after ∧
            (result.text = code ++ "\n" → after.text = current.text) := by
  obtain ⟨⟨span, code⟩, hexpand⟩ : ∃ selected, file.selection.expand file.text = some selected := by
    simp [Selection.expand, hselection]
  refine ⟨span, code, hexpand, isLines_expand hexpand, ?_, ?_⟩
  · have hformat := formatIn_open hfile around .selection
    simp only [Scope.job, hexpand] at hformat
    exact hformat.trans (dispatchWith_ok hoptions ..)
  · intro result before step current hdelivers hcurrent htext
    obtain ⟨happlied, htouches, hlanded⟩ := hdelivers.lands hcurrent
    have hsame : file.selection.expand current.text = some (span, code) := htext ▸ hexpand
    exact ⟨happlied, htouches, _, hlanded, withResult_replaces_lines hsame result,
      withResult_same_lines hsame⟩

/-- A script of five lines, the last one empty, marked from below its end up to its second line. -/
def markedScript : OpenFile :=
  ⟨"script.js", none, "é\n\n😀b\nccc\n", ⟨0, 1⟩, ⟨⟨9, 4⟩, ⟨1, 0⟩⟩⟩

/-- A session with the marked script and a formatter that tidies every text away in place. -/
def marked : Session Unit :=
  { start default false (fun _ _ => (.returned (.plain "tidy\n\n"), ())) (.inline ()) defaultTimeout
    with editor := Editor.empty.openFile "script" markedScript }

/-- A selection that runs backwards and reaches outside the document stands for all lines from its
first one on. Of two newlines at the end of the result one stays. -/
theorem selected_lines_replaced_backwards :
    marked.editor.file? "script" = some markedScript ∧ markedScript.selection.isEmpty = false ∧
      marked.optionsFor default markedScript = .ok Settings.defaultOptions ∧
      (marked.formatSelection default "script").1 = .applied ∧
      ∃ after, (marked.formatSelection default "script").2.editor.file? "script" = some after ∧
        LinesReplaced ⟨⟨1, 0⟩, ⟨4, 0⟩⟩ "tidy\n\n" markedScript after := by
  obtain ⟨span, code, hexpand, -, hformat, hresult⟩ := selected_lines_replaced
    (show marked.editor.file? "script" = some markedScript from rfl) (by decide)
    (show marked.optionsFor default markedScript = .ok Settings.defaultOptions from rfl)
  obtain ⟨rfl, rfl⟩ : span = ⟨⟨1, 0⟩, ⟨4, 0⟩⟩ ∧ code = "\n😀b\nccc\n" := by
    rw [← Prod.mk.injEq, ← Option.some.injEq, ← hexpand]
    decide
  obtain ⟨happlied, -, after, hafter, hreplaced, -⟩ :=
    hresult (.plain "tidy\n\n") marked _ markedScript (.inPlace rfl rfl) rfl rfl
  rw [← hformat] at happlied hafter
  exact ⟨rfl, by decide, rfl, happlied, after, hafter, hreplaced⟩

end Session

end EditorFormat
