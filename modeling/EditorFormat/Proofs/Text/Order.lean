import EditorFormat.Proofs.Text.Positions

/-!
# The order of positions

Positions are ordered by row and then by column, offsets as numbers. Going from one to the other
keeps the order (`offset_lt_iff`), so the positions in a text and the offsets up to its length are
the same places in the same order (`offsets_order_positions`). Whatever is outside the text stands
for its end.
-/

namespace EditorFormat

open Text

namespace Position

/-- Of two different positions one is before the other. -/
theorem before_or_before {first second : Position} (h : first ≠ second) :
    first.Before second ∨ second.Before first := by
  obtain ⟨row, column⟩ := first
  obtain ⟨otherRow, otherColumn⟩ := second
  have hdiffer : row = otherRow → column ≠ otherColumn := by
    rintro rfl rfl
    exact h rfl
  simp only [Before]
  omega

/-- No position is before one that is before it. -/
theorem Before.asymm {first second : Position} (h : first.Before second) :
    ¬ second.Before first := by
  unfold Before at h ⊢
  omega

/-! ## In a list of lines -/

section Lines

variable {lines : List (List Char)} {row column : Nat}

/-- Offsets grow from place to place, within a line and from one line to the next. -/
theorem offsetIn_lt {later laterColumn : Nat} (h : InLines lines row column)
    (hlater : InLines lines later laterColumn)
    (hbefore : Before ⟨row, column⟩ ⟨later, laterColumn⟩) :
    offsetIn lines row column < offsetIn lines later laterColumn := by
  induction lines generalizing row later with
  | nil => exact absurd rfl (ne_nil_of_inLines h)
  | cons line rest ih =>
    cases row with
    | zero =>
      have hcolumn := inLines_first.1 h
      cases later with
      | zero =>
        -- two columns of one line
        have hless : column < laterColumn := by
          simpa [Before] using hbefore
        exact hless
      | succ later =>
        have hne := ne_nil_of_inLines (inLines_later.1 hlater)
        rw [offsetIn_succ line hne, offsetIn]
        omega
    | succ row =>
      cases later with
      | zero => exact absurd hbefore (by simp [Before])
      | succ later =>
        have hin := inLines_later.1 h
        have hinLater := inLines_later.1 hlater
        have hrest : Before ⟨row, column⟩ ⟨later, laterColumn⟩ := by
          simpa [Before] using hbefore
        have hne := ne_nil_of_inLines hin
        have hless := ih hin hinLater hrest
        rw [offsetIn_succ line hne, offsetIn_succ line hne]
        omega

/-- A row past the last line is behind all lines. -/
theorem offsetIn_of_length_le (h : lines.length ≤ row) :
    offsetIn lines row column = (Lines.join lines).length := by
  induction lines generalizing row with
  | nil => rfl
  | cons line later ih =>
    obtain ⟨row, rfl⟩ := Nat.exists_eq_succ_of_ne_zero (Nat.ne_zero_of_lt h)
    cases hlater : later with
    | nil => rfl
    | cons next rest =>
      have hne : later ≠ [] := hlater ▸ List.cons_ne_nil next rest
      rw [← hlater, offsetIn_succ line hne, ih (Nat.le_of_succ_le_succ h), Lines.join_cons line hne,
        List.length_append, List.length_cons]
      omega

end Lines

/-! ## In a text -/

variable {text : String}

/-- Of two positions in a text the one with the smaller offset is before the other. -/
theorem offset_lt_iff {first second : Position} (hfirst : first.IsIn text)
    (hsecond : second.IsIn text) :
    first.offset text < second.offset text ↔ first.Before second := by
  constructor
  · intro hless
    have hne : first ≠ second := fun heq => Nat.lt_irrefl _ (heq ▸ hless)
    refine (before_or_before hne).resolve_right fun hbefore => ?_
    rw [offset_eq_offsetIn hfirst, offset_eq_offsetIn hsecond] at hless
    exact Nat.lt_asymm hless (offsetIn_lt hsecond hfirst hbefore)
  · intro hbefore
    rw [offset_eq_offsetIn hfirst, offset_eq_offsetIn hsecond]
    exact offsetIn_lt hfirst hsecond hbefore

/-- The smaller of two offsets in a text is found before the other. -/
theorem ofOffset_before_iff {first second : Nat} (hfirst : first ≤ text.toList.length)
    (hsecond : second ≤ text.toList.length) :
    (ofOffset text first).Before (ofOffset text second) ↔ first < second := by
  rw [← offset_lt_iff (isIn_ofOffset text first) (isIn_ofOffset text second), offset_ofOffset,
    offset_ofOffset, Nat.min_eq_left hfirst, Nat.min_eq_left hsecond]

/-- The positions in a text and the offsets up to its length are the same places in the same order.
An offset past the end is cut off at the end of the last line, and a row past the last line at the
end of the text. -/
structure SameOrder (text : String) : Prop where
  offset_le : ∀ position : Position, position.IsIn text →
    position.offset text ≤ text.toList.length
  found : ∀ position : Position, position.IsIn text →
    ofOffset text (position.offset text) = position
  isIn : ∀ offset, (ofOffset text offset).IsIn text
  offset_found : ∀ offset ≤ text.toList.length, (ofOffset text offset).offset text = offset
  offset_lt : ∀ first second : Position, first.IsIn text → second.IsIn text →
    (first.offset text < second.offset text ↔ first.Before second)
  found_before : ∀ first ≤ text.toList.length, ∀ second ≤ text.toList.length,
    ((ofOffset text first).Before (ofOffset text second) ↔ first < second)
  past_end : ∀ offset, text.toList.length ≤ offset →
    ofOffset text offset = (Span.document text).stop
  document_stop : ∃ before last, Lines.split text.toList = before ++ [last] ∧
    (Span.document text).stop = ⟨before.length, last.length⟩
  past_last_row : ∀ position : Position, (Lines.split text.toList).length ≤ position.row →
    position.offset text = text.toList.length

/-- In every text, with whatever lines and characters, offsets and positions translate into each
other, both ways strictly increasing. -/
theorem offsets_order_positions (text : String) : SameOrder text where
  offset_le _ := offset_le
  found _ := ofOffset_offset
  isIn := isIn_ofOffset text
  offset_found offset h := by rw [offset_ofOffset, Nat.min_eq_left h]
  offset_lt _ _ := offset_lt_iff
  found_before _ hfirst _ hsecond := ofOffset_before_iff hfirst hsecond
  past_end _ := ofOffset_of_le
  document_stop := by
    have hne := Lines.split_ne_nil text.toList
    have hlines := (List.dropLast_concat_getLast hne).symm
    refine ⟨_, _, hlines, ?_⟩
    simp only [Span.document, Span.ofRows, List.length_dropLast]
    rw [← List.getLast?_eq_getElem?, List.getLast?_eq_some_getLast hne, Option.getD_some]
  past_last_row position h := by
    have hexact : position.exactOffset text = text.toList.length := by
      rw [exactOffset, offsetIn_of_length_le h, Lines.join_split]
    rw [offset_eq_exact (Nat.le_of_eq hexact), hexact]

end Position

end EditorFormat
