import EditorFormat.Proofs.Text.Order

/-!
# Undoing a replacement

A span cuts a text at two offsets. What is before the first cut and what is behind the second one
stays, in characters and in bytes, since each cut falls between two characters. What is put between
the cuts has a span of its own in the new text. The removed text in place of that span gives the old
text back (`replacement_can_be_undone`).

The new span is known without a look at the new text: it begins where the old one began, and a
position moves over each character of the replacement (`Position.past`).

All this is about the offsets that the arithmetic gives. Where sums wrap around there always are two
offsets. Where sums are checked, a span that has none at one of its ends is not replaced, and any
other is replaced in the same way (`Checked`).
-/

namespace EditorFormat

namespace Text

/-! ## Bytes -/

/-- The number of bytes before a character, given by the number of characters before it. It is the
number of all bytes when there is no such character. -/
def byteIndex : List Char → Nat → Nat
  | [], _ => 0
  | _ :: _, 0 => 0
  | c :: rest, index + 1 => c.utf8Size + byteIndex rest index

/-- The bytes before a character are those of the characters before it. -/
theorem byteIndex_eq (text : List Char) (index : Nat) :
    byteIndex text index = (text.take index).utf8Encode.size := by
  induction text generalizing index with
  | nil => simp [byteIndex]
  | cons c rest ih =>
    cases index with
    | zero => simp [byteIndex]
    | succ index =>
      have hsize : [c].utf8Encode.size = c.utf8Size := by
        rw [List.utf8Encode_singleton, List.size_toByteArray, String.length_utf8EncodeChar]
      rw [byteIndex, List.take_succ_cons, List.utf8Encode_cons, ByteArray.size_append, hsize, ih]

/-- A later character has no fewer bytes before it. -/
theorem byteIndex_mono (text : List Char) {first last : Nat} (h : first ≤ last) :
    byteIndex text first ≤ byteIndex text last := by
  have hcut : text.take last = text.take first ++ (text.take last).drop first := by
    have htake : (text.take last).take first = text.take first := by
      rw [List.take_take, Nat.min_eq_left h]
    rw [← htake, List.take_append_drop]
  rw [byteIndex_eq, byteIndex_eq, hcut, List.utf8Encode_append, ByteArray.size_append]
  omega

/-- The later of two characters is the one with more bytes before it. -/
theorem max_byteIndex (text : List Char) (first last : Nat) :
    max (byteIndex text first) (byteIndex text last) = byteIndex text (max first last) := by
  by_cases h : first ≤ last
  · rw [Nat.max_eq_right h, Nat.max_eq_right (byteIndex_mono text h)]
  · have hle : last ≤ first := by omega
    rw [Nat.max_eq_left hle, Nat.max_eq_left (byteIndex_mono text hle)]

/-- A text is cut between two characters: the bytes on either side, and a valid place between. -/
theorem cut_byteIndex (text : String) (index : Nat) :
    text.toByteArray.extract 0 (byteIndex text.toList index) =
        (text.toList.take index).utf8Encode ∧
      text.toByteArray.extract (byteIndex text.toList index) text.utf8ByteSize =
        (text.toList.drop index).utf8Encode ∧
      (String.Pos.Raw.mk (byteIndex text.toList index)).IsValid text := by
  have hbytes : text.toByteArray =
      (text.toList.take index).utf8Encode ++ (text.toList.drop index).utf8Encode := by
    rw [← List.utf8Encode_append, List.take_append_drop, String.utf8Encode_toList]
  have hsize : text.utf8ByteSize =
      (text.toList.take index).utf8Encode.size + (text.toList.drop index).utf8Encode.size := by
    rw [← ByteArray.size_append, ← hbytes]
    rfl
  refine ⟨?_, ?_, ?_⟩
  · rw [hbytes]
    exact ByteArray.extract_append_eq_left (byteIndex_eq _ _)
  · rw [hbytes, hsize]
    exact ByteArray.extract_append_eq_right (byteIndex_eq _ _) rfl
  · rw [String.Pos.Raw.isValid_iff_exists_append]
    refine ⟨.ofList (text.toList.take index), .ofList (text.toList.drop index), ?_, ?_⟩
    · rw [← String.ofList_append, List.take_append_drop, String.ofList_toList]
    · show String.Pos.Raw.mk _ = ⟨(String.ofList (text.toList.take index)).toByteArray.size⟩
      rw [String.toByteArray_ofList, byteIndex_eq]

end Text

open Text

/-! ## Moving over characters -/

namespace Position

/-- The position behind some characters that begin at a position. -/
def past (position : Position) : List Char → Position
  | [] => position
  | c :: rest =>
    past (if c = '\n' then ⟨position.row + 1, 0⟩ else ⟨position.row, position.column + 1⟩) rest

/-- The position that is found in a text when the text begins at another position. -/
def plus (origin found : Position) : Position :=
  ⟨origin.row + found.row, if found.row = 0 then origin.column + found.column else found.column⟩

/-- Characters are passed one after the other. -/
theorem past_append (position : Position) (first second : List Char) :
    position.past (first ++ second) = (position.past first).past second := by
  induction first generalizing position with
  | nil => rfl
  | cons c rest ih => exact ih _

/-- A character that is no newline moves what is found behind it in its line by a column. -/
theorem ofOffsetIn_cons (c : Char) (line : List Char) (later : List (List Char)) (offset : Nat) :
    ofOffsetIn ((c :: line) :: later) (offset + 1) =
      plus ⟨0, 1⟩ (ofOffsetIn (line :: later) offset) := by
  cases later with
  | nil =>
    simp only [ofOffsetIn, plus, List.length_cons, if_true, Position.mk.injEq, true_and]
    omega
  | cons next rest =>
    by_cases h : offset ≤ line.length
    · have hcons : offset + 1 ≤ (c :: line).length := Nat.succ_le_succ h
      rw [ofOffsetIn_first _ hcons, ofOffsetIn_first _ h]
      show (⟨0, offset + 1⟩ : Position) = ⟨0, 1 + offset⟩
      rw [Nat.add_comm 1]
    · obtain ⟨left, rfl⟩ : ∃ left, offset = line.length + 1 + left :=
        ⟨offset - (line.length + 1), by omega⟩
      have hmore : line.length + 1 + left + 1 = (c :: line).length + 1 + left := by
        rw [List.length_cons]
        omega
      have hrest : next :: rest ≠ [] := List.cons_ne_nil next rest
      rw [hmore, ofOffsetIn_later _ hrest, ofOffsetIn_later _ hrest]
      simp [plus]

/-- An offset is found behind the characters before it. -/
theorem past_take (origin : Position) (text : List Char) (offset : Nat) :
    origin.past (text.take offset) = origin.plus (ofOffsetIn (Lines.split text) offset) := by
  induction text generalizing origin offset with
  | nil => simp [Lines.split, ofOffsetIn, past, plus]
  | cons c rest ih =>
    have hne := Lines.split_ne_nil rest
    cases offset with
    | zero =>
      obtain ⟨line, later, hsplit⟩ := List.exists_cons_of_ne_nil (Lines.split_ne_nil (c :: rest))
      rw [hsplit, ofOffsetIn_first later (Nat.zero_le _)]
      rfl
    | succ offset =>
      rw [List.take_succ_cons, past, ih]
      by_cases hc : c = '\n'
      · have hoffset : offset + 1 = ([] : List Char).length + 1 + offset := by
          rw [List.length_nil]
          omega
        rw [if_pos hc, hc, Lines.split_newline, hoffset, ofOffsetIn_later _ hne]
        simp [plus]
        omega
      · obtain ⟨line, later, hsplit⟩ := List.exists_cons_of_ne_nil hne
        rw [if_neg hc, Lines.split_cons_of_ne hc, hsplit, List.headD_cons, List.tail_cons,
          ofOffsetIn_cons]
        simp only [plus, Nat.zero_add]
        split <;> simp only [Position.mk.injEq, true_and]
        omega

/-- An offset is found by going over the characters before it. -/
theorem ofOffset_eq_past (text : String) (offset : Nat) :
    ofOffset text offset = past ⟨0, 0⟩ (text.toList.take offset) := by
  rw [past_take, ofOffset, plus]
  simp

end Position

/-! ## Replacements -/

namespace Span

/-- The offset where a span cuts a text first. -/
def first (text : String) (span : Span) : Nat :=
  min (span.start.offset text) text.toList.length

/-- The offset where a span cuts a text a second time, not before the first. -/
def last (text : String) (span : Span) : Nat :=
  max (span.first text) (min (span.stop.offset text) text.toList.length)

/-- The span of a text that was put in place of a span: from the same start over each character. -/
def inserted (text : String) (span : Span) (replacement : String) : Span :=
  let start := Position.ofOffset text (span.start.offset text)
  ⟨start, start.past replacement.toList⟩

/-- A text is cut between its characters. The characters and the bytes before the first cut and
behind the second one stay. -/
structure Splices (text : String) (span : Span) (replacement : String) : Prop where
  cuts : text.toList = text.toList.take (span.first text) ++ (span.covered text).toList ++
    text.toList.drop (span.last text)
  chars : (span.replace text replacement).toList = text.toList.take (span.first text) ++
    replacement.toList ++ text.toList.drop (span.last text)
  bytes : let firstByte := byteIndex text.toList (span.start.offset text)
    let lastByte := max firstByte (byteIndex text.toList (span.stop.offset text))
    (String.Pos.Raw.mk firstByte).IsValid text ∧ (String.Pos.Raw.mk lastByte).IsValid text ∧
      (span.replace text replacement).toByteArray = text.toByteArray.extract 0 firstByte ++
        replacement.toByteArray ++ text.toByteArray.extract lastByte text.utf8ByteSize

/-- The replacement has a span of its own in the new text, and the removed text in place of that
span gives the old text back. A span of the text with its start first is cut at its two ends, and
the span of the replacement begins where it begins. -/
structure Undone (text : String) (span : Span) (replacement : String) : Prop where
  start_found : (span.inserted text replacement).start =
    Position.ofOffset (span.replace text replacement) (span.first text)
  stop_found : (span.inserted text replacement).stop = Position.ofOffset
    (span.replace text replacement) (span.first text + replacement.toList.length)
  covered : (span.inserted text replacement).covered (span.replace text replacement) = replacement
  undone : (span.inserted text replacement).replace (span.replace text replacement)
    (span.covered text) = text
  ordered : span.start.IsIn text → span.stop.IsIn text →
    ¬ span.stop.Before span.start →
      span.first text = span.start.offset text ∧ span.last text = span.stop.offset text ∧
        (span.inserted text replacement).start = span.start

/-- Where sums of words are checked, a text is replaced in the same way, unless the offset of an end
of the span is no word. This happens neither to a span of the text nor on the way back. -/
structure Checked (text : String) (span : Span) (replacement : String) : Prop where
  ends : span.start.Overflows text ∨ span.stop.Overflows text →
    span.checkedReplace? text replacement = none
  same : ¬ span.start.Overflows text → ¬ span.stop.Overflows text →
    span.checkedReplace? text replacement = some (span.replace text replacement)
  valid : span.start.IsIn text → span.stop.IsIn text →
    span.checkedReplace? text replacement = some (span.replace text replacement)
  document : (Span.document text).checkedReplace? text replacement = some replacement
  undone : (span.inserted text replacement).checkedReplace? (span.replace text replacement)
    (span.covered text) = some text

variable (text : String) (span : Span) (replacement : String)

/-- The two cuts are where the offsets of the span say, unless these are past the end or run
backwards. -/
theorem take_drop_cuts :
    text.toList.take (span.start.offset text) = text.toList.take (span.first text) ∧
      text.toList.drop (max (span.start.offset text) (span.stop.offset text)) =
        text.toList.drop (span.last text) := by
  have hlast : span.last text =
      min (max (span.start.offset text) (span.stop.offset text)) text.toList.length := by
    simp only [last, first]
    omega
  rw [hlast, first]
  exact ⟨List.take_eq_take_min, List.drop_eq_drop_min⟩

/-- The first cut is not behind the second one, which is not behind the end. -/
theorem first_le_last : span.first text ≤ span.last text ∧ span.last text ≤ text.toList.length := by
  simp only [last, first]
  omega

/-- The characters of a text with a replacement in it. -/
theorem toList_replace : (span.replace text replacement).toList =
    text.toList.take (span.first text) ++ replacement.toList ++
      text.toList.drop (span.last text) := by
  obtain ⟨htake, hdrop⟩ := span.take_drop_cuts text
  rw [replace, String.toList_ofList, replaceChars, htake, hdrop]

/-- The characters between the cuts are those that the span covers. -/
theorem toList_cuts : text.toList = text.toList.take (span.first text) ++
    (span.covered text).toList ++ text.toList.drop (span.last text) := by
  obtain ⟨before, after, htext, hreplace⟩ := span.replace_eq_splice text
  -- the covered text in its own place changes nothing
  have hsame : span.replace text (span.covered text) = text := by rw [hreplace, ← htext]
  exact (congrArg String.toList hsame).symm.trans (span.toList_replace text _)

/-- A replacement cuts the text between its characters. -/
theorem splices : Splices text span replacement where
  cuts := span.toList_cuts text
  chars := span.toList_replace text replacement
  bytes := by
    intro firstByte lastByte
    have hlast : lastByte =
        byteIndex text.toList (max (span.start.offset text) (span.stop.offset text)) :=
      max_byteIndex ..
    obtain ⟨hbefore, -, hfirst⟩ := cut_byteIndex text (span.start.offset text)
    obtain ⟨-, hbehind, hvalid⟩ :=
      cut_byteIndex text (max (span.start.offset text) (span.stop.offset text))
    rw [← hlast] at hbehind hvalid
    refine ⟨hfirst, hvalid, ?_⟩
    rw [hbefore, hbehind, replace, replaceChars, String.toByteArray_ofList,
      List.utf8Encode_append, List.utf8Encode_append, String.utf8Encode_toList]

/-- Where the new text begins, and where it goes on behind the replacement. -/
theorem take_replace :
    (span.replace text replacement).toList.take (span.first text) =
        text.toList.take (span.first text) ∧
      (span.replace text replacement).toList.take (span.first text + replacement.toList.length) =
        text.toList.take (span.first text) ++ replacement.toList ∧
      (span.replace text replacement).toList.drop (span.first text + replacement.toList.length) =
        text.toList.drop (span.last text) := by
  have hfirst : (text.toList.take (span.first text)).length = span.first text :=
    List.length_take_of_le (Nat.min_le_right ..)
  have hboth : (text.toList.take (span.first text) ++ replacement.toList).length =
      span.first text + replacement.toList.length := by
    rw [List.length_append, hfirst]
  rw [toList_replace]
  refine ⟨?_, List.take_left' hboth, List.drop_left' hboth⟩
  rw [List.append_assoc]
  exact List.take_left' hfirst

/-- The span of the replacement in the new text. -/
theorem inserted_found :
    (span.inserted text replacement).start =
        Position.ofOffset (span.replace text replacement) (span.first text) ∧
      (span.inserted text replacement).stop = Position.ofOffset
        (span.replace text replacement) (span.first text + replacement.toList.length) := by
  obtain ⟨hfirst, hboth, -⟩ := span.take_replace text replacement
  have hstart : Position.ofOffset text (span.start.offset text) =
      Position.past ⟨0, 0⟩ (text.toList.take (span.first text)) := by
    rw [Position.ofOffset_eq_past, (span.take_drop_cuts text).1]
  rw [Position.ofOffset_eq_past, Position.ofOffset_eq_past, hfirst, hboth, Position.past_append,
    ← hstart]
  exact ⟨rfl, rfl⟩

/-- The replacement is between the ends of its span. -/
theorem offset_inserted :
    (span.inserted text replacement).start.offset (span.replace text replacement) =
        span.first text ∧
      (span.inserted text replacement).stop.offset (span.replace text replacement) =
        span.first text + replacement.toList.length := by
  obtain ⟨hstart, hstop⟩ := span.inserted_found text replacement
  have hlength : span.first text + replacement.toList.length ≤
      (span.replace text replacement).toList.length := by
    have hfirst := span.first_le_last text
    rw [toList_replace, List.length_append, List.length_append, List.length_take_of_le (by omega)]
    omega
  rw [hstart, hstop, Position.offset_ofOffset, Position.offset_ofOffset]
  omega

/-- A replacement has a span of its own, at which it can be undone. -/
theorem undone : Undone text span replacement := by
  obtain ⟨hstart, hstop⟩ := span.inserted_found text replacement
  obtain ⟨hfirst, hlast⟩ := span.offset_inserted text replacement
  obtain ⟨htake, hboth, hdrop⟩ := span.take_replace text replacement
  have hmax : max (span.first text) (span.first text + replacement.toList.length) =
      span.first text + replacement.toList.length := Nat.max_eq_right (Nat.le_add_right ..)
  refine ⟨hstart, hstop, ?_, ?_, ?_⟩
  · have hlength : (text.toList.take (span.first text)).length = span.first text :=
      List.length_take_of_le (Nat.min_le_right ..)
    rw [covered, hfirst, hlast, hmax, hboth, List.drop_left' hlength, String.ofList_toList]
  · rw [replace, replaceChars, hfirst, hlast, hmax, htake, hdrop, ← toList_cuts,
      String.ofList_toList]
  · intro hin hinStop hordered
    have hle := Position.offset_le hin
    have hleStop := Position.offset_le hinStop
    rw [← Position.offset_lt_iff hinStop hin] at hordered
    refine ⟨Nat.min_eq_left hle, ?_, Position.ofOffset_offset hin⟩
    simp only [last, first]
    omega

/-- Where both offsets are words, sums that are checked give the same text. -/
theorem checkedReplace?_eq {text : String} {span : Span} (hstart : ¬ span.start.Overflows text)
    (hstop : ¬ span.stop.Overflows text) (replacement : String) :
    span.checkedReplace? text replacement = some (span.replace text replacement) := by
  rw [checkedReplace?, Position.checkedOffset?_eq hstart, Position.checkedOffset?_eq hstop]
  rfl

/-- A replacement is made where sums are checked if the offsets of the span are words. -/
theorem checked : Checked text span replacement where
  ends h := by
    by_cases hstart : span.start.Overflows text
    · have hnone : span.start.checkedOffset? text = none := if_pos hstart
      rw [checkedReplace?, hnone]
      rfl
    · have hnone : span.stop.checkedOffset? text = none := if_pos (h.resolve_left hstart)
      rw [checkedReplace?, Position.checkedOffset?_eq hstart, hnone]
      rfl
  same hstart hstop := checkedReplace?_eq hstart hstop replacement
  valid hstart hstop :=
    checkedReplace?_eq (Position.not_overflows hstart) (Position.not_overflows hstop) replacement
  document := by
    have hstart : (Span.document text).start.IsIn text := by
      obtain ⟨line, later, h⟩ := List.exists_cons_of_ne_nil (Lines.split_ne_nil text.toList)
      exact ⟨line, by rw [h]; rfl, Nat.zero_le _⟩
    rw [checkedReplace?_eq (Position.not_overflows hstart)
      (Position.not_overflows (Position.isIn_document_stop text)), replace_document]
  undone := by
    obtain ⟨hstart, hstop⟩ := span.inserted_found text replacement
    have hin : (span.inserted text replacement).start.IsIn (span.replace text replacement) := by
      rw [hstart]
      exact Position.isIn_ofOffset _ _
    have hinStop : (span.inserted text replacement).stop.IsIn (span.replace text replacement) := by
      rw [hstop]
      exact Position.isIn_ofOffset _ _
    rw [checkedReplace?_eq (Position.not_overflows hin) (Position.not_overflows hinStop),
      (span.undone text replacement).undone]

/-- A replacement keeps the characters and bytes on either side of the span, also of one that runs
backwards or reaches outside the text. At the span of the whole document it is all that is left.
Putting the removed text in place of the replacement gives the old text back. All this is the same
where sums are checked, for spans whose offsets are words. -/
theorem replacement_can_be_undone : Splices text span replacement ∧
    (document text).replace text replacement = replacement ∧ Undone text span replacement ∧
      Checked text span replacement :=
  ⟨span.splices text replacement, replace_document text replacement,
    span.undone text replacement, span.checked text replacement⟩

-- A sum that is no word wraps around to an offset in the text, or ends the program.
example :
    let far : Position := ⟨1, UInt64.size - 1⟩
    (⟨far, far⟩ : Span).replace "a\nb" "X" = "aX\nb" ∧
      (⟨far, far⟩ : Span).checkedReplace? "a\nb" "X" = none := by
  decide +kernel

end Span

end EditorFormat
