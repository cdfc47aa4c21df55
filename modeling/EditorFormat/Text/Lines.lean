/-!
# Lines of a text

A text is cut at its newlines. The newline belongs to no line, so a text with `n` newlines has
`n + 1` lines, and joining the lines with newlines gives the text back (`join_split`).
-/

namespace EditorFormat.Text

namespace Lines

/-- The lines of a text, in order. The empty text has one empty line. -/
def split : List Char → List (List Char)
  | [] => [[]]
  | c :: rest =>
    match split rest with
    | [] => [[c]]
    | line :: later => if c = '\n' then [] :: line :: later else (c :: line) :: later

/-- The text that has the given lines. -/
def join : List (List Char) → List Char
  | [] => []
  | [line] => line
  | line :: later => line ++ '\n' :: join later

/-- Every text has a line. -/
theorem split_ne_nil (text : List Char) : split text ≠ [] := by
  cases text with
  | nil => simp [split]
  | cons c rest =>
    unfold split
    split
    · simp
    · split <;> simp

/-- A newline ends a line. -/
@[simp] theorem split_newline (rest : List Char) : split ('\n' :: rest) = [] :: split rest := by
  cases h : split rest with
  | nil => exact absurd h (split_ne_nil rest)
  | cons line later => simp [split, h]

/-- Any other character extends the line it begins. -/
theorem split_cons_of_ne {c : Char} (hc : c ≠ '\n') (rest : List Char) :
    split (c :: rest) = (c :: (split rest).headD []) :: (split rest).tail := by
  cases h : split rest with
  | nil => exact absurd h (split_ne_nil rest)
  | cons line later => simp [split, h, hc]

/-- The lines of a text make up the text. -/
@[simp] theorem join_split (text : List Char) : join (split text) = text := by
  induction text with
  | nil => rfl
  | cons c rest ih =>
    cases h : split rest with
    | nil => exact absurd h (split_ne_nil rest)
    | cons line later =>
      rw [h] at ih
      by_cases hc : c = '\n'
      · subst hc
        simp [h, join, ih]
      · simp only [split, h, hc, if_false]
        cases later with
        | nil => simpa [join] using ih
        | cons next later => simpa [join] using ih

/-- No line holds a newline. -/
theorem newline_notMem_of_mem_split {text line : List Char} (h : line ∈ split text) :
    '\n' ∉ line := by
  induction text generalizing line with
  | nil => simp_all [split]
  | cons c rest ih =>
    by_cases hc : c = '\n'
    · subst hc
      rw [split_newline, List.mem_cons] at h
      rcases h with rfl | h
      · simp
      · exact ih h
    · cases hs : split rest with
      | nil => exact absurd hs (split_ne_nil rest)
      | cons first later =>
        simp only [split, hs, hc, if_false, List.mem_cons] at h
        rcases h with rfl | h
        · have hfirst : first ∈ split rest := by simp [hs]
          have := ih hfirst
          simp [this, Ne.symm hc]
        · exact ih (by simp [hs, h])

end Lines

end EditorFormat.Text
