import EditorFormat.Proofs.Text.Splice

/-!
# Positions and offsets

A position lies in a text when its row is a row of the text and its column is not past the end of
that row. On these positions `offset` counts the characters before the position (`take_offset`),
and `ofOffset` is its inverse: `ofOffset_offset` and `offset_ofOffset`. An offset past the end
stands for the end of the text (`ofOffset_of_le`).
-/

namespace EditorFormat

open Text

namespace Position

/-- The row is one of the given lines, and the column is not past its end. -/
def InLines (lines : List (List Char)) (row column : Nat) : Prop :=
  ∃ line, lines[row]? = some line ∧ column ≤ line.length

/-- A position lies in a text. -/
def IsIn (position : Position) (text : String) : Prop :=
  InLines (Lines.split text.toList) position.row position.column

/-- The characters before a row and column of the given lines: the lines before the row, each with
its newline, and the columns before the column. -/
def beforeIn (lines : List (List Char)) (row column : Nat) : List Char :=
  Lines.closed (lines.take row) ++ (lines[row]?.getD []).take column

/-- The characters before a position of a text. -/
def before (position : Position) (text : String) : List Char :=
  beforeIn (Lines.split text.toList) position.row position.column

/-! ## In a list of lines -/

section Lines

variable {lines : List (List Char)} {row column : Nat}

/-- Nothing lies in no lines. -/
theorem ne_nil_of_inLines (h : InLines lines row column) : lines ≠ [] := by
  rintro rfl
  obtain ⟨line, hline, -⟩ := h
  exact absurd hline nofun

/-- The columns of the first line are those up to its length. -/
theorem inLines_first {line : List Char} {later : List (List Char)} :
    InLines (line :: later) 0 column ↔ column ≤ line.length := by
  simp [InLines]

/-- What lies in a later line lies in the later lines. -/
theorem inLines_later {line : List Char} {later : List (List Char)} :
    InLines (line :: later) (row + 1) column ↔ InLines later row column := by
  simp [InLines]

/-- The characters before a place in a later line begin with the first line. -/
theorem beforeIn_later (line : List Char) (later : List (List Char)) (row column : Nat) :
    beforeIn (line :: later) (row + 1) column = line ++ '\n' :: beforeIn later row column := by
  simp [beforeIn, Lines.closed]

/-- An offset in the first line is a column of it. -/
theorem ofOffsetIn_first {line : List Char} (later : List (List Char)) {offset : Nat}
    (h : offset ≤ line.length) : ofOffsetIn (line :: later) offset = ⟨0, offset⟩ := by
  cases later with
  | nil => rw [ofOffsetIn, Nat.min_eq_left h]
  | cons next rest =>
    rw [ofOffsetIn, if_pos h]
    exact nofun

/-- An offset behind the first newline is sought in the later lines. -/
theorem ofOffsetIn_later (line : List Char) {later : List (List Char)} (h : later ≠ [])
    (offset : Nat) :
    ofOffsetIn (line :: later) (line.length + 1 + offset) =
      ⟨(ofOffsetIn later offset).row + 1, (ofOffsetIn later offset).column⟩ := by
  obtain ⟨next, rest, rfl⟩ := List.exists_cons_of_ne_nil h
  have hpast : ¬ line.length + 1 + offset ≤ line.length := by omega
  rw [ofOffsetIn, if_neg hpast, Nat.add_sub_cancel_left]
  exact nofun

/-- A place is found by its offset. -/
theorem ofOffsetIn_offsetIn (h : InLines lines row column) :
    ofOffsetIn lines (offsetIn lines row column) = ⟨row, column⟩ := by
  induction lines generalizing row with
  | nil => exact absurd rfl (ne_nil_of_inLines h)
  | cons line later ih =>
    cases row with
    | zero => exact ofOffsetIn_first later (inLines_first.1 h)
    | succ row =>
      have hlater := inLines_later.1 h
      have hne := ne_nil_of_inLines hlater
      rw [offsetIn_succ line hne, ofOffsetIn_later line hne, ih hlater]

/-- The offset of a place is the number of characters before it, which begin the text. -/
theorem cut_offsetIn (h : InLines lines row column) :
    offsetIn lines row column = (beforeIn lines row column).length ∧
      ∃ after, Lines.join lines = beforeIn lines row column ++ after := by
  induction lines generalizing row with
  | nil => exact absurd rfl (ne_nil_of_inLines h)
  | cons line later ih =>
    cases row with
    | zero =>
      have hcolumn := inLines_first.1 h
      have hbefore : beforeIn (line :: later) 0 column = line.take column := rfl
      obtain ⟨after, hafter⟩ := Lines.exists_join_cons later
      refine ⟨?_, line.drop column ++ after, ?_⟩
      · rw [hbefore, List.length_take, Nat.min_eq_left hcolumn, offsetIn]
      · rw [hbefore, hafter, ← List.append_assoc, List.take_append_drop]
    | succ row =>
      have hlater := inLines_later.1 h
      have hne := ne_nil_of_inLines hlater
      obtain ⟨hoffset, after, hafter⟩ := ih hlater
      refine ⟨?_, after, ?_⟩
      · rw [offsetIn_succ line hne, beforeIn_later, hoffset, List.length_append, List.length_cons]
        omega
      · rw [Lines.join_cons line hne, beforeIn_later, hafter, List.append_assoc, List.cons_append]

/-- An offset is found in the lines, and it is the offset of the place where it is found; one past
the end is cut off there. -/
theorem ofOffsetIn_spec (h : lines ≠ []) (offset : Nat) :
    let found := ofOffsetIn lines offset
    InLines lines found.row found.column ∧
      offsetIn lines found.row found.column = min offset (Lines.join lines).length := by
  induction lines generalizing offset with
  | nil => exact absurd rfl h
  | cons line later ih =>
    by_cases hfirst : offset ≤ line.length
    · obtain ⟨after, hafter⟩ := Lines.exists_join_cons later
      have hshort : offset ≤ (line ++ after).length := by
        rw [List.length_append]
        omega
      rw [ofOffsetIn_first later hfirst, hafter, Nat.min_eq_left hshort]
      exact ⟨inLines_first.2 hfirst, rfl⟩
    · by_cases hlater : later = []
      · subst hlater
        exact ⟨inLines_first.2 (Nat.min_le_right ..), rfl⟩
      · obtain ⟨left, rfl⟩ : ∃ left, offset = line.length + 1 + left :=
          ⟨offset - (line.length + 1), by omega⟩
        obtain ⟨hin, hoffset⟩ := ih hlater left
        rw [ofOffsetIn_later line hlater]
        refine ⟨inLines_later.2 hin, ?_⟩
        rw [offsetIn_succ line hlater, hoffset, Lines.join_cons line hlater, List.length_append,
          List.length_cons]
        omega

end Lines

/-! ## In a text -/

variable {text : String} {position : Position}

/-- The offset of a position in a text is a word. -/
theorem not_overflows (h : position.IsIn text) : ¬ position.Overflows text := by
  obtain ⟨line, hline, hcolumn⟩ := h
  have hle := offsetIn_le hline hcolumn
  rw [Lines.join_split] at hle
  exact fun hover => Nat.not_lt.2 hle hover.1

/-- The offset of a position in a text is exact. -/
theorem offset_eq_offsetIn (h : position.IsIn text) :
    position.offset text = offsetIn (Lines.split text.toList) position.row position.column := by
  obtain ⟨line, hline, hcolumn⟩ := h
  exact offset_eq hline hcolumn

/-- A text begins with the characters before a position, and the offset counts them. -/
theorem cut_offset (h : position.IsIn text) :
    position.offset text = (position.before text).length ∧
      ∃ after, text.toList = position.before text ++ after := by
  obtain ⟨hoffset, after, hafter⟩ := cut_offsetIn h
  exact ⟨(offset_eq_offsetIn h).trans hoffset, after, (Lines.join_split _).symm.trans hafter⟩

/-- The characters up to an offset are those before the position. -/
theorem take_offset (h : position.IsIn text) :
    text.toList.take (position.offset text) = position.before text := by
  obtain ⟨hoffset, after, hafter⟩ := cut_offset h
  rw [hoffset]
  exact (congrArg _ hafter).trans List.take_left

/-- A position in a text is not behind its end. -/
theorem offset_le (h : position.IsIn text) : position.offset text ≤ text.toList.length := by
  obtain ⟨hoffset, after, hafter⟩ := cut_offset h
  have hlength := congrArg List.length hafter
  rw [List.length_append] at hlength
  omega

/-- A position in a text is found by its offset. -/
theorem ofOffset_offset (h : position.IsIn text) :
    ofOffset text (position.offset text) = position := by
  rw [offset_eq_offsetIn h]
  exact ofOffsetIn_offsetIn h

/-- Every offset is found in the text. -/
theorem isIn_ofOffset (text : String) (offset : Nat) : (ofOffset text offset).IsIn text :=
  (ofOffsetIn_spec (Lines.split_ne_nil _) offset).1

/-- An offset is that of the position where it is found; one past the end is cut off there. -/
theorem offset_ofOffset (text : String) (offset : Nat) :
    (ofOffset text offset).offset text = min offset text.toList.length := by
  have hoffset := (ofOffsetIn_spec (Lines.split_ne_nil text.toList) offset).2
  rw [Lines.join_split] at hoffset
  exact (offset_eq_offsetIn (isIn_ofOffset text offset)).trans hoffset

/-- Positions in a text with one offset are the same. -/
theorem eq_of_offset_eq {other : Position} (h : position.IsIn text) (hother : other.IsIn text)
    (heq : position.offset text = other.offset text) : position = other := by
  rw [← ofOffset_offset h, heq, ofOffset_offset hother]

/-- A text ends in its last row. -/
theorem isIn_document_stop (text : String) : (Span.document text).stop.IsIn text := by
  have hlast := List.getElem?_eq_getElem
    (show (Lines.split text.toList).length - 1 < (Lines.split text.toList).length from
      Nat.sub_one_lt (mt List.length_eq_zero_iff.1 (Lines.split_ne_nil _)))
  refine ⟨_, hlast, ?_⟩
  simp only [Span.document, Span.ofRows, hlast, Option.getD_some, Nat.le_refl]

/-- An offset at the end or past it is found at the end of the text. -/
theorem ofOffset_of_le {offset : Nat} (h : text.toList.length ≤ offset) :
    ofOffset text offset = (Span.document text).stop := by
  refine eq_of_offset_eq (isIn_ofOffset text offset) (isIn_document_stop text) ?_
  rw [offset_ofOffset, Nat.min_eq_right h, Span.offset_document_stop]

end Position

end EditorFormat
