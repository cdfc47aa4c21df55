import EditorFormat.Text.Selection

/-!
# Rows of a text

A text is its lines with newlines between them, so a list of lines can be cut anywhere: what is
before the cut contributes its lines with a newline after each (`join_append`), and moves every
offset behind the cut by the same number of characters (`offsetIn_append`).
-/

namespace EditorFormat

namespace Text.Lines

/-- The given lines with a newline after each. -/
def closed (lines : List (List Char)) : List Char :=
  lines.flatMap fun line => line ++ ['\n']

/-- A line before other lines ends in a newline. -/
theorem join_cons (line : List Char) {later : List (List Char)} (h : later ≠ []) :
    join (line :: later) = line ++ '\n' :: join later := by
  cases later with
  | nil => exact absurd rfl h
  | cons next rest => rfl

/-- Lines before other lines end in newlines. -/
theorem join_append (before : List (List Char)) {later : List (List Char)} (h : later ≠ []) :
    join (before ++ later) = closed before ++ join later := by
  induction before with
  | nil => rfl
  | cons line rest ih =>
    have hrest : rest ++ later ≠ [] := List.append_ne_nil_of_right_ne_nil rest h
    rw [List.cons_append, join_cons line hrest, ih, closed, closed, List.flatMap_cons]
    simp only [List.append_assoc, List.cons_append, List.nil_append]

/-- The first line begins the text. What comes behind it is the same for every line. -/
theorem exists_join_cons (later : List (List Char)) :
    ∃ after, ∀ line, join (line :: later) = line ++ after := by
  cases later with
  | nil => exact ⟨[], fun line => (List.append_nil line).symm⟩
  | cons next rest => exact ⟨'\n' :: join (next :: rest), fun _ => rfl⟩

/-- A text without newlines is one line. -/
theorem split_line {line : List Char} (h : '\n' ∉ line) : split line = [line] := by
  induction line with
  | nil => rfl
  | cons c rest ih =>
    obtain ⟨hc, hrest⟩ := not_or.1 (mt List.mem_cons.2 h)
    rw [split_cons_of_ne (Ne.symm hc), ih hrest, List.headD_cons, List.tail_cons]

/-- A newline ends the line before it. -/
theorem split_append_newline {line : List Char} (h : '\n' ∉ line) (rest : List Char) :
    split (line ++ '\n' :: rest) = line :: split rest := by
  induction line with
  | nil => exact split_newline rest
  | cons c others ih =>
    obtain ⟨hc, hothers⟩ := not_or.1 (mt List.mem_cons.2 h)
    rw [List.cons_append, split_cons_of_ne (Ne.symm hc), ih hothers, List.headD_cons,
      List.tail_cons]

/-- Joined lines are cut where they were joined. -/
theorem split_join {lines : List (List Char)} (hne : lines ≠ [])
    (hlines : ∀ line ∈ lines, '\n' ∉ line) : split (join lines) = lines := by
  induction lines with
  | nil => exact absurd rfl hne
  | cons line later ih =>
    obtain ⟨hline, hlater⟩ := List.forall_mem_cons.1 hlines
    cases hrest : later with
    | nil => exact split_line hline
    | cons next others =>
      have hcut : later ≠ [] := hrest ▸ List.cons_ne_nil next others
      rw [← hrest, join_cons line hcut, split_append_newline hline, ih hcut hlater]

end Text.Lines

open Text

namespace Position

/-- A row that is not the first one begins behind the newline of the row before it. -/
theorem offsetIn_succ (line : List Char) {later : List (List Char)} (h : later ≠ [])
    (row column : Nat) :
    offsetIn (line :: later) (row + 1) column = line.length + 1 + offsetIn later row column := by
  cases later with
  | nil => exact absurd rfl h
  | cons next rest => rfl

/-- Offsets behind a cut count all that is before the cut. -/
theorem offsetIn_append (before : List (List Char)) {later : List (List Char)} (h : later ≠ [])
    (row column : Nat) :
    offsetIn (before ++ later) (before.length + row) column =
      (Lines.closed before).length + offsetIn later row column := by
  induction before with
  | nil => simp [Lines.closed]
  | cons line rest ih =>
    have hrest : rest ++ later ≠ [] := List.append_ne_nil_of_right_ne_nil rest h
    have hrow : (line :: rest).length + row = rest.length + row + 1 := by
      rw [List.length_cons]
      omega
    rw [List.cons_append, hrow, offsetIn_succ line hrest, ih, Lines.closed, Lines.closed,
      List.flatMap_cons, List.length_append, List.length_append, List.length_singleton]
    omega

/-- A row begins behind the lines before it. -/
theorem offsetIn_start (before : List (List Char)) {later : List (List Char)} (h : later ≠ []) :
    offsetIn (before ++ later) before.length 0 = (Lines.closed before).length := by
  have hstart := offsetIn_append before h 0 0
  obtain ⟨line, rest, rfl⟩ := List.exists_cons_of_ne_nil h
  exact hstart

/-- A row ends behind its own line and the lines before it. -/
theorem offsetIn_stop (before : List (List Char)) (line : List Char)
    (later : List (List Char)) :
    offsetIn (before ++ line :: later) before.length line.length =
      (Lines.join (before ++ [line])).length := by
  have hstop := offsetIn_append before (List.cons_ne_nil line later) 0 line.length
  rw [Nat.add_zero] at hstop
  rw [hstop, Lines.join_append before (List.cons_ne_nil line []), List.length_append]
  rfl

/-- A column of a line is not behind the end of the lines. -/
theorem offsetIn_le {lines : List (List Char)} {row column : Nat} {line : List Char}
    (hline : lines[row]? = some line) (hcolumn : column ≤ line.length) :
    offsetIn lines row column ≤ (Lines.join lines).length := by
  obtain ⟨hrow, rfl⟩ := List.getElem?_eq_some_iff.1 hline
  have hcut : lines = lines.take row ++ lines[row] :: lines.drop (row + 1) := by
    rw [← List.drop_eq_getElem_cons hrow, List.take_append_drop]
  have hlength : row = (lines.take row).length + 0 := by
    rw [List.length_take, Nat.add_zero]
    omega
  have hne := List.cons_ne_nil lines[row] (lines.drop (row + 1))
  obtain ⟨after, hafter⟩ := Lines.exists_join_cons (lines.drop (row + 1))
  have hoffset := offsetIn_append (lines.take row) hne 0 column
  rw [← hcut, ← hlength] at hoffset
  have hjoin : (Lines.join lines).length =
      (Lines.closed (lines.take row)).length + (lines[row] ++ after).length := by
    rw [← hafter, ← List.length_append, ← Lines.join_append _ hne, ← hcut]
  rw [hoffset, hjoin, List.length_append, offsetIn]
  omega

/-- The offset of a column of a line is exact. -/
theorem offset_eq {text : String} {row column : Nat} {line : List Char}
    (hline : (Lines.split text.toList)[row]? = some line) (hcolumn : column ≤ line.length) :
    offset text ⟨row, column⟩ = offsetIn (Lines.split text.toList) row column := by
  refine offset_eq_exact ?_
  have hle := offsetIn_le hline hcolumn
  rwa [Lines.join_split] at hle

end Position

end EditorFormat
