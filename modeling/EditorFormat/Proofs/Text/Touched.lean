import EditorFormat.Proofs.Text.Order

/-!
# The rows that a selection touches

A character is in the row whose number is that of the newlines before it, so a newline is in the row
that it ends. `expansion_covers_touched_rows` says of the characters between the ends of a selection
that the expanded selection covers exactly their rows, and of every expanded selection that it is
made of whole lines of the document.
-/

namespace EditorFormat

open Text

namespace Text

/-- The row of the character behind an offset. -/
def rowAt (text : String) (offset : Nat) : Nat :=
  (text.toList.take offset).count '\n'

/-- One of the characters from one offset up to another is in a row. -/
def Touches (text : String) (first last row : Nat) : Prop :=
  ∃ offset, first ≤ offset ∧ offset < last ∧ offset < text.toList.length ∧ rowAt text offset = row

/-! ## Newlines -/

/-- Lines with a newline after each have as many newlines. -/
theorem Lines.count_newline_closed {lines : List (List Char)} (h : ∀ line ∈ lines, '\n' ∉ line) :
    (closed lines).count '\n' = lines.length := by
  induction lines with
  | nil => rfl
  | cons line later ih =>
    obtain ⟨hline, hlater⟩ := List.forall_mem_cons.1 h
    rw [closed, List.flatMap_cons, ← closed, List.count_append, List.count_append, ih hlater,
      List.count_eq_zero_of_not_mem hline, List.count_singleton_self, List.length_cons]
    omega

/-- Joined lines have a newline less than there are lines. -/
theorem Lines.count_newline_join {before : List (List Char)} {last : List Char}
    (h : ∀ line ∈ before ++ [last], '\n' ∉ line) :
    (join (before ++ [last])).count '\n' = before.length := by
  obtain ⟨hbefore, hlast⟩ := List.forall_mem_append.1 h
  have hnone : (join [last]).count '\n' = 0 :=
    List.count_eq_zero_of_not_mem (hlast last List.mem_cons_self)
  rw [join_append before (List.cons_ne_nil last []), List.count_append,
    count_newline_closed hbefore, hnone, Nat.add_zero]

end Text

namespace Position

variable {text : String}

/-- The row of a position in a text is one of its rows. -/
theorem IsIn.row_lt {position : Position} (h : position.IsIn text) :
    position.row < (Lines.split text.toList).length := by
  obtain ⟨line, hline, -⟩ := h
  exact (List.getElem?_eq_some_iff.1 hline).1

/-- There are as many newlines before a position as rows. -/
theorem rowAt_offset {position : Position} (h : position.IsIn text) :
    rowAt text (position.offset text) = position.row := by
  have hrow := h.row_lt
  obtain ⟨line, hline⟩ : ∃ line, (Lines.split text.toList)[position.row]? = some line :=
    ⟨_, List.getElem?_eq_getElem hrow⟩
  have hbefore : ∀ earlier ∈ (Lines.split text.toList).take position.row, '\n' ∉ earlier :=
    fun earlier hearlier => Lines.newline_notMem_of_mem_split (List.mem_of_mem_take hearlier)
  have hcolumns : '\n' ∉ line.take position.column := fun hmem =>
    Lines.newline_notMem_of_mem_split (List.mem_of_getElem? hline) (List.mem_of_mem_take hmem)
  rw [rowAt, take_offset h, before, beforeIn, hline, Option.getD_some, List.count_append,
    Lines.count_newline_closed hbefore, List.count_eq_zero_of_not_mem hcolumns, List.length_take]
  omega

/-- The characters between two positions are in the rows from that of the first position on, up to
that of the second one if there are characters of that row before it. -/
theorem touches_iff {first second : Position} (hfirst : first.IsIn text)
    (hsecond : second.IsIn text) (h : first.Before second) (row : Nat) :
    Touches text (first.offset text) (second.offset text) row ↔
      first.row ≤ row ∧ (row < second.row ∨ row = second.row ∧ 0 < second.column) := by
  have hend := offset_le hsecond
  constructor
  · rintro ⟨offset, hle, hlt, hlength, rfl⟩
    -- the character is behind a position that is between the two
    obtain ⟨position, hposition, rfl⟩ :
        ∃ position : Position, position.IsIn text ∧ position.offset text = offset := by
      refine ⟨ofOffset text offset, isIn_ofOffset text offset, ?_⟩
      rw [offset_ofOffset, Nat.min_eq_left (Nat.le_of_lt hlength)]
    have hafter : ¬ position.Before first := fun hbefore =>
      Nat.not_lt_of_le hle ((offset_lt_iff hposition hfirst).2 hbefore)
    have hbefore := (offset_lt_iff hposition hsecond).1 hlt
    rw [rowAt_offset hposition]
    unfold Before at hafter hbefore
    omega
  · rintro ⟨hle, hlast⟩
    -- the first character of the row that is not before the first position
    obtain ⟨position, hposition, rfl, hstart, hbefore⟩ : ∃ position : Position,
        position.IsIn text ∧ position.row = row ∧ ¬ position.Before first ∧
          position.Before second := by
      by_cases hrow : row = first.row
      · exact ⟨first, hfirst, hrow.symm, fun hself => hself.asymm hself, h⟩
      · have hcount := hsecond.row_lt
        have hrows : row < (Lines.split text.toList).length := by omega
        refine ⟨⟨row, 0⟩, ⟨_, List.getElem?_eq_getElem hrows, Nat.zero_le _⟩, rfl, ?_, ?_⟩
        · simp only [Before]
          omega
        · simp only [Before]
          omega
    have hlt := (offset_lt_iff hposition hsecond).2 hbefore
    refine ⟨position.offset text, ?_, hlt, Nat.lt_of_lt_of_le hlt hend, rowAt_offset hposition⟩
    exact Nat.le_of_not_lt fun hless => hstart ((offset_lt_iff hposition hfirst).1 hless)

end Position

/-! ## Expanded selections -/

namespace Selection

/-- A selection that is not empty expands to its rows. -/
theorem expand_eq (text : String) {first second : Position} (h : first ≠ second) :
    ∃ code, expand text ⟨first, second⟩ =
      let lines := Lines.split text.toList
      let rows := (ordered ⟨first, second⟩).rows (lines.length - 1)
      some (Span.ofRows lines rows.1 rows.2, code) := by
  simp [expand, isEmpty, h]

/-- A selection with its earlier end first is in order. -/
theorem ordered_of_before {first second : Position} (h : first.Before second) :
    ordered ⟨first, second⟩ = ⟨first, second⟩ ∧ ordered ⟨second, first⟩ = ⟨first, second⟩ := by
  simp [ordered, h, h.asymm]

/-- It does not matter which end of a selection comes first. -/
theorem expand_swap (text : String) (first second : Position) :
    expand text ⟨first, second⟩ = expand text ⟨second, first⟩ := by
  by_cases h : first = second
  · rw [h]
  · have hordered : ordered ⟨first, second⟩ = ordered ⟨second, first⟩ := by
      rcases Position.before_or_before h with hbefore | hbefore
      · rw [(ordered_of_before hbefore).1, (ordered_of_before hbefore).2]
      · rw [(ordered_of_before hbefore).1, (ordered_of_before hbefore).2]
    simp [expand, isEmpty, h, Ne.symm h, hordered]

/-- The rows of a selection in a document: its first row, and its last one if it selects something
there. -/
theorem rows_of_before {first second : Position} {bottom : Nat} (h : first.Before second)
    (hbottom : second.row ≤ bottom) :
    rows ⟨first, second⟩ bottom =
      (first.row, if second.column = 0 then second.row - 1 else second.row) := by
  unfold Position.Before at h
  have hfirst : min first.row bottom = first.row := by omega
  simp only [rows, hfirst, Prod.mk.injEq, true_and]
  split <;> split <;> omega

end Selection

/-- A span of whole rows of a document, with its text. -/
structure Span.IsWhole (text : String) (span : Span) (code : String) : Prop where
  start_in : span.start.IsIn text
  stop_in : span.stop.IsIn text
  start_column : span.start.column = 0
  stop_column : ∃ line, (Lines.split text.toList)[span.stop.row]? = some line ∧
    span.stop.column = line.length
  /-- The text is the part of the document between the two offsets. -/
  between : span.start.offset text ≤ span.stop.offset text ∧
    code = .ofList ((text.toList.take (span.stop.offset text)).drop (span.start.offset text))
  lineCount : span.lineCount = code.toList.count '\n' + 1

/-- Every expanded selection is a span of whole rows, inside the document. -/
theorem Selection.isWhole_expand {text code : String} {selection : Selection} {span : Span}
    (h : selection.expand text = some (span, code)) : span.IsWhole text code := by
  have hcovered := Span.covered_expand h
  obtain ⟨before, middle, line, later, hlines, rfl, rfl⟩ := Span.cut_expand h
  obtain ⟨after, -, -, hstart, hstop⟩ := Span.cut_ofRows hlines
  have hlast : (Lines.split text.toList)[before.length + middle.length]? = some line := by
    simp [hlines]
  have hfirst : before.length < (Lines.split text.toList).length := by
    rw [hlines, List.length_append, List.length_append, List.length_cons]
    omega
  have hnewlines : ∀ row ∈ middle ++ [line], '\n' ∉ row := by
    intro row hrow
    have hdocument : row ∈ Lines.split text.toList := by
      rcases List.mem_append.1 hrow with hmem | hmem
      · simp [hlines, hmem]
      · simp [hlines, List.mem_singleton.1 hmem]
    exact Lines.newline_notMem_of_mem_split hdocument
  have hordered : (Lines.closed before).length ≤
      (Lines.closed before ++ Lines.join (middle ++ [line])).length := by
    rw [List.length_append]
    exact Nat.le_add_right ..
  refine ⟨⟨_, List.getElem?_eq_getElem hfirst, Nat.zero_le _⟩, ⟨line, hlast, ?_⟩, rfl,
    ⟨line, hlast, ?_⟩, ⟨?_, ?_⟩, ?_⟩
  · simp [Span.ofRows, hlast]
  · simp [Span.ofRows, hlast]
  · rw [hstart, hstop]
    exact hordered
  · rw [← hcovered, Span.covered, hstart, hstop, Nat.max_eq_right hordered]
  · rw [String.toList_ofList, Lines.count_newline_join hnewlines]
    simp [Span.lineCount, Span.ofRows]

/-- A selection with two different ends, in whatever order and wherever they are, expands to whole
rows of the document. When the ends are positions in the document, these rows are the rows of the
characters between them. -/
theorem Selection.expansion_covers_touched_rows (text : String) {first second : Position}
    (h : first ≠ second) :
    ∃ span code, expand text ⟨first, second⟩ = some (span, code) ∧
      expand text ⟨second, first⟩ = some (span, code) ∧ span.IsWhole text code ∧
      (first.IsIn text → second.IsIn text → first.Before second →
        ∀ row, span.start.row ≤ row ∧ row ≤ span.stop.row ↔
          Touches text (first.offset text) (second.offset text) row) := by
  obtain ⟨code, hexpand⟩ := expand_eq text h
  refine ⟨_, code, hexpand, expand_swap text first second ▸ hexpand, isWhole_expand hexpand, ?_⟩
  intro hfirst hsecond hbefore row
  have hbottom := Nat.le_sub_one_of_lt hsecond.row_lt
  rw [Position.touches_iff hfirst hsecond hbefore, (ordered_of_before hbefore).1,
    rows_of_before hbefore hbottom]
  unfold Position.Before at hbefore
  simp only [Span.ofRows]
  split <;> omega

/-- The selection ends at column zero behind an empty row, and its first end is behind the last
character of its row, so that it touches two rows by their newlines only. -/
theorem Selection.expansion_covers_rows_of_newlines :
    (⟨0, 1⟩ : Position) ≠ ⟨2, 0⟩ ∧ (⟨0, 1⟩ : Position).IsIn "é\n\n😀b" ∧
      (⟨2, 0⟩ : Position).IsIn "é\n\n😀b" ∧
      expand "é\n\n😀b" ⟨⟨2, 0⟩, ⟨0, 1⟩⟩ = some (⟨⟨0, 0⟩, ⟨1, 0⟩⟩, "é\n") ∧
      ∀ row, row ≤ 1 ↔ Touches "é\n\n😀b" 1 3 row := by
  have hne : (⟨0, 1⟩ : Position) ≠ ⟨2, 0⟩ := by decide
  have hfirst : (⟨0, 1⟩ : Position).IsIn "é\n\n😀b" := ⟨['é'], by decide, by decide⟩
  have hsecond : (⟨2, 0⟩ : Position).IsIn "é\n\n😀b" := ⟨['😀', 'b'], by decide, by decide⟩
  obtain ⟨span, code, -, hexpand, -, htouched⟩ := expansion_covers_touched_rows "é\n\n😀b" hne
  obtain ⟨rfl, rfl⟩ : span = ⟨⟨0, 0⟩, ⟨1, 0⟩⟩ ∧ code = "é\n" := by
    rw [← Prod.mk.injEq, ← Option.some.injEq, ← hexpand]
    decide
  have hstart : (⟨0, 1⟩ : Position).offset "é\n\n😀b" = 1 := by decide
  have hstop : (⟨2, 0⟩ : Position).offset "é\n\n😀b" = 3 := by decide
  rw [hstart, hstop] at htouched
  refine ⟨hne, hfirst, hsecond, hexpand, fun row => ?_⟩
  rw [← htouched hfirst hsecond (by decide) row]
  exact ⟨fun hrow => ⟨Nat.zero_le row, hrow⟩, And.right⟩

end EditorFormat
