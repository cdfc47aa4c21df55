import EditorFormat.Proofs.Text.Rows

/-!
# Splicing a text

`Span.replace` puts a text in place of a span. `replace_eq_splice` cuts the document into what is
before the span, what it covers and what is after it, and only the middle part goes.
`replace_document` is the case of the whole document.
-/

namespace EditorFormat

open Text

/-- The rows of a selection are rows of the document, the first one first. -/
theorem Selection.rows_le (selection : Selection) (bottom : Nat) :
    (selection.rows bottom).1 ≤ (selection.rows bottom).2 ∧
      (selection.rows bottom).2 ≤ bottom := by
  refine ⟨Nat.le_max_left .., Nat.max_le.2 ⟨Nat.min_le_right .., Nat.min_le_right ..⟩⟩

namespace Span

/-- The text that a span covers. -/
def covered (text : String) (span : Span) : String :=
  let first := span.start.offset text
  String.ofList ((text.toList.take (max first (span.stop.offset text))).drop first)

/-- What is before and after a span stays, whatever is put in place of the text it covers. -/
theorem replace_eq_splice (text : String) (span : Span) :
    ∃ before after : String,
      text = before ++ span.covered text ++ after ∧
      ∀ replacement, span.replace text replacement = before ++ replacement ++ after := by
  let first := span.start.offset text
  let last := max first (span.stop.offset text)
  refine ⟨.ofList (text.toList.take first), .ofList (text.toList.drop last), ?_, ?_⟩
  · have hbefore : (text.toList.take last).take first = text.toList.take first := by
      rw [List.take_take, Nat.min_eq_left (Nat.le_max_left _ _)]
    have hcut : text.toList.take first ++ (text.toList.take last).drop first =
        text.toList.take last := by
      rw [← hbefore, List.take_append_drop]
    rw [covered, ← String.ofList_append, ← String.ofList_append, hcut, List.take_append_drop,
      String.ofList_toList]
  · intro replacement
    rw [replace, replaceChars, String.ofList_append, String.ofList_append, String.ofList_toList]

/-! ## Spans of whole rows -/

/-- A span of whole rows ends behind its last line and all lines before it. -/
theorem offset_ofRows_stop {text : String} {before later : List (List Char)} {line : List Char}
    (h : Lines.split text.toList = before ++ line :: later) (first : Nat) :
    (ofRows (Lines.split text.toList) first before.length).stop.offset text =
      (Lines.join (before ++ [line])).length := by
  have hline : (Lines.split text.toList)[before.length]? = some line := by
    rw [h, List.getElem?_append_right (Nat.le_refl _), Nat.sub_self]
    rfl
  rw [ofRows, hline, Option.getD_some, Position.offset_eq hline (Nat.le_refl _), h]
  exact Position.offsetIn_stop before line later

/-- A text around some of its rows: where their span begins and ends, and what is before and behind
them. What is behind them would be the same behind any other lines. -/
theorem cut_ofRows {text : String} {before middle later : List (List Char)} {line : List Char}
    (h : Lines.split text.toList = before ++ (middle ++ line :: later)) :
    let span := ofRows (Lines.split text.toList) before.length (before.length + middle.length)
    ∃ after, (∀ other, Lines.join (other :: later) = other ++ after) ∧
      text.toList = Lines.closed before ++ Lines.join (middle ++ [line]) ++ after ∧
      span.start.offset text = (Lines.closed before).length ∧
      span.stop.offset text = (Lines.closed before ++ Lines.join (middle ++ [line])).length := by
  intro span
  have hrest : middle ++ line :: later ≠ [] :=
    List.append_ne_nil_of_right_ne_nil _ (List.cons_ne_nil line later)
  have hrows : middle ++ [line] ≠ [] :=
    List.append_ne_nil_of_right_ne_nil _ (List.cons_ne_nil line [])
  obtain ⟨after, hafter⟩ := Lines.exists_join_cons later
  refine ⟨after, hafter, ?_, ?_, ?_⟩
  · rw [← Lines.join_split text.toList, h, Lines.join_append before hrest,
      Lines.join_append middle (List.cons_ne_nil line later), hafter,
      Lines.join_append middle (List.cons_ne_nil line [])]
    simp only [List.append_assoc]
    rfl
  · obtain ⟨first, others, hfirst⟩ := List.exists_cons_of_ne_nil hrest
    have hline : (Lines.split text.toList)[before.length]? = some first := by
      rw [h, hfirst, List.getElem?_append_right (Nat.le_refl _), Nat.sub_self]
      rfl
    rw [← Position.offsetIn_start before hrest, ← h]
    exact Position.offset_eq hline (Nat.zero_le _)
  · -- The span ends behind the lines before it and its own lines, without the last newline.
    have hstop := offset_ofRows_stop (h.trans (List.append_assoc ..).symm) before.length
    rwa [List.length_append, List.append_assoc, Lines.join_append before hrows] at hstop

/-- A span of whole rows covers the text of these rows. -/
theorem covered_ofRows {text : String} {before middle later : List (List Char)}
    {line : List Char} (h : Lines.split text.toList = before ++ (middle ++ line :: later)) :
    (ofRows (Lines.split text.toList) before.length (before.length + middle.length)).covered text =
      .ofList (Lines.join (middle ++ [line])) := by
  obtain ⟨after, -, htext, hstart, hstop⟩ := cut_ofRows h
  have hlast : max (Lines.closed before).length
      (Lines.closed before ++ Lines.join (middle ++ [line])).length =
        (Lines.closed before ++ Lines.join (middle ++ [line])).length :=
    Nat.max_eq_right (by simp)
  rw [covered, hstart, hstop, hlast, htext, List.take_left, List.drop_left]

/-- A text in place of whole rows comes between the lines before them and the lines after them. -/
theorem replace_ofRows {text : String} {before middle later : List (List Char)}
    {line : List Char} (h : Lines.split text.toList = before ++ (middle ++ line :: later))
    (replacement : String) :
    (ofRows (Lines.split text.toList) before.length (before.length + middle.length)).replace text
      replacement = .ofList (Lines.join (before ++ replacement.toList :: later)) := by
  obtain ⟨after, hafter, htext, hstart, hstop⟩ := cut_ofRows h
  have hlast : max (Lines.closed before).length
      (Lines.closed before ++ Lines.join (middle ++ [line])).length =
        (Lines.closed before ++ Lines.join (middle ++ [line])).length :=
    Nat.max_eq_right (by simp)
  have htake : text.toList.take (Lines.closed before).length = Lines.closed before := by
    rw [htext, List.append_assoc, List.take_left]
  rw [replace, replaceChars, hstart, hstop, hlast, htake, htext, List.drop_left,
    Lines.join_append before (List.cons_ne_nil _ later), hafter, List.append_assoc]

/-- An expanded selection cuts the lines of the document into those before its span, those that the
span covers and those after it. There is at least one line that it covers. -/
theorem cut_expand {text code : String} {selection : Selection} {span : Span}
    (h : selection.expand text = some (span, code)) :
    ∃ before middle line later,
      Lines.split text.toList = before ++ (middle ++ line :: later) ∧
      span = ofRows (Lines.split text.toList) before.length (before.length + middle.length) ∧
      code = .ofList (Lines.join (middle ++ [line])) := by
  unfold Selection.expand at h
  split at h
  · exact absurd h nofun
  · let lines := Lines.split text.toList
    let first := (selection.ordered.rows (lines.length - 1)).1
    let last := (selection.ordered.rows (lines.length - 1)).2
    have hbottom : 0 < lines.length := List.length_pos_iff.2 (Lines.split_ne_nil _)
    have hfirst : first ≤ last := selection.ordered.rows_le (lines.length - 1) |>.1
    have hlast : last ≤ lines.length - 1 := selection.ordered.rows_le (lines.length - 1) |>.2
    have hrow : last - first < (lines.drop first).length := by
      rw [List.length_drop]
      omega
    have hcut : lines = lines.take first ++ ((lines.drop first).take (last - first) ++
        (lines.drop first)[last - first] :: (lines.drop first).drop (last - first + 1)) := by
      rw [List.getElem_cons_drop, List.take_append_drop, List.take_append_drop]
    have hbefore : (lines.take first).length = first := by
      rw [List.length_take]
      omega
    have hmiddle : first + ((lines.drop first).take (last - first)).length = last := by
      rw [List.length_take]
      omega
    have hcount : last - first + 1 = last + 1 - first := by omega
    have h : some (ofRows lines first last,
        String.ofList (Lines.join ((lines.drop first).take (last + 1 - first)))) =
          some (span, code) := h
    obtain ⟨hspan, hcode⟩ := Prod.mk.inj (Option.some.inj h)
    refine ⟨_, _, _, _, hcut, ?_, ?_⟩
    · rw [← hspan, hbefore, hmiddle]
    · rw [← hcode, List.take_append_getElem hrow, hcount]

/-- An expanded selection covers the text that it gives. -/
theorem covered_expand {text code : String} {selection : Selection} {span : Span}
    (h : selection.expand text = some (span, code)) : span.covered text = code := by
  obtain ⟨before, middle, line, later, hcut, rfl, rfl⟩ := cut_expand h
  exact covered_ofRows hcut

/-- The span of the document ends behind its last character. -/
theorem offset_document_stop (text : String) :
    (document text).stop.offset text = text.toList.length := by
  have h := (List.dropLast_concat_getLast (Lines.split_ne_nil text.toList)).symm
  have hstop := offset_ofRows_stop h 0
  rwa [← h, Lines.join_split, List.length_dropLast] at hstop

/-- A span of the whole document is replaced as a whole. -/
theorem replace_document (text replacement : String) :
    (document text).replace text replacement = replacement := by
  have hstart : (document text).start.offset text = 0 := by
    obtain ⟨line, later, h⟩ := List.exists_cons_of_ne_nil (Lines.split_ne_nil text.toList)
    have hline : (Lines.split text.toList)[0]? = some line := by rw [h, List.getElem?_cons_zero]
    have hzero : Position.offset text ⟨0, 0⟩ = 0 := by
      rw [Position.offset_eq hline (Nat.zero_le _), h, Position.offsetIn]
    exact hzero
  rw [replace, replaceChars, hstart, offset_document_stop]
  simp

end Span

end EditorFormat
