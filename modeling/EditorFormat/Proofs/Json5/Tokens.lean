import EditorFormat.Proofs.Json5.Grammar
import EditorFormat.Proofs.Json5.Readback

/-!
# Reading gaps, strings and keys of JSON5

What the grammar says of a gap, a string or a key is what the reader finds in it. An identifier goes
on as long as it can, and so does a number, so it is read to its end only where the text behind it
begins otherwise (`EndsToken`).
-/

namespace EditorFormat.Json5

/-! ## Gaps -/

/-- A blank is skipped. -/
theorem skipGap_blank {c : Char} (h : isBlank c = true) (rest : List Char) :
    skipGap .open (c :: rest) = skipGap .open rest := by
  have hslash : c ≠ '/' := by
    rintro rfl
    exact absurd h (by decide)
  rw [skipGap, if_pos h]
  · exact fun _ heq _ => absurd heq hslash
  · exact fun _ heq _ => absurd heq hslash

/-- The end of a line is a blank. -/
theorem isBlank_of_isLineEnd {c : Char} (h : isLineEnd c = true) : isBlank c = true := by
  rw [isBlank, h, Bool.true_or]

/-- A line comment is skipped up to the end of its line. -/
theorem skipGap_lineComment {comment rest : List Char}
    (h : ∀ c ∈ comment, isLineEnd c = false) (hends : LineEnds rest) :
    skipGap .lineComment (comment ++ rest) = skipGap .open rest := by
  induction comment with
  | nil =>
    obtain ⟨c, hc, hline⟩ := hends
    obtain ⟨later, rfl⟩ := List.head?_eq_some_iff.1 hc
    rw [List.nil_append, skipGap_blank (isBlank_of_isLineEnd hline), skipGap, if_pos hline]
  | cons c later ih =>
    obtain ⟨hc, hlater⟩ := List.forall_mem_cons.1 h
    rw [List.cons_append, skipGap, hc]
    exact ih hlater

/-- In a text without the end of a comment no star is followed by a slash. -/
theorem of_not_infix_cons {c : Char} {later : List Char} (h : ¬ ['*', '/'] <:+: c :: later) :
    ¬ ['*', '/'] <:+: later ∧ (c = '*' → later.head? ≠ some '/') := by
  refine ⟨fun hlater => h (hlater.trans (List.suffix_cons c later).isInfix), ?_⟩
  rintro rfl hslash
  obtain ⟨rest, rfl⟩ := List.head?_eq_some_iff.1 hslash
  exact h ⟨[], rest, rfl⟩

/-- A block comment is skipped up to its end. -/
theorem skipGap_blockComment {comment : List Char} (h : ¬ ['*', '/'] <:+: comment) {star : Bool}
    (hstar : star = true → comment.head? ≠ some '/') (rest : List Char) :
    skipGap (.blockComment star) (comment ++ '*' :: '/' :: rest) = skipGap .open rest := by
  induction comment generalizing star with
  | nil => simp [skipGap]
  | cons c later ih =>
    obtain ⟨hlater, hhead⟩ := of_not_infix_cons h
    have hopen : (star && c == '/') = false := by
      rw [Bool.and_eq_false_iff, beq_eq_false_iff_ne]
      cases star with
      | false => exact .inl rfl
      | true => exact .inr fun hc => hstar rfl (congrArg some hc)
    rw [List.cons_append, skipGap, hopen]
    exact ih hlater fun hc => hhead (beq_iff_eq.1 hc)

/-- What ends a line ends it whatever follows. -/
theorem LineEnds.append {text : List Char} (h : LineEnds text) (rest : List Char) :
    LineEnds (text ++ rest) := by
  obtain ⟨c, hc, hline⟩ := h
  obtain ⟨later, rfl⟩ := List.head?_eq_some_iff.1 hc
  exact ⟨c, rfl, hline⟩

/-- A gap is skipped. -/
theorem GapText.skip {gap : List Char} (h : GapText LineEnds gap) (rest : List Char) :
    skipGap .open (gap ++ rest) = skipGap .open rest := by
  induction h with
  | nil => rfl
  | blank hblank h ih => rw [List.cons_append, skipGap_blank hblank, ih]
  | @line comment later hcomment hends h ih =>
    have hskip := skipGap_lineComment hcomment (hends.append rest)
    rw [← List.append_assoc] at hskip
    rw [List.cons_append, List.cons_append, skipGap, hskip, ih]
  | @block comment later hcomment h ih =>
    have hskip : skipGap (.blockComment false) (comment ++ '*' :: '/' :: (later ++ rest)) =
        skipGap .open (later ++ rest) := skipGap_blockComment hcomment Bool.noConfusion _
    rw [List.cons_append, List.cons_append, List.append_assoc, List.cons_append, List.cons_append,
      skipGap, hskip, ih]

/-- The next token is found behind a gap. -/
theorem reads_peekToken_gap {gap : List Char} (hgap : GapText LineEnds gap) {c : Char}
    (hc : IsToken c) (rest : List Char) :
    Reads peekToken (gap ++ c :: rest) c (c :: rest) := by
  have hskip : Reads skipBlanks (gap ++ c :: rest) () (c :: rest) := by
    rw [skipBlanks, reads_get_bind, hgap.skip, skipGap_token hc]
    rfl
  exact hskip.bind rfl

/-! ## Characters of identifiers -/

/-- The characters of ASCII that an identifier begins with. -/
theorem isIdentifierStart_of_ascii {c : Char} {found : Bool}
    (h : c.toNat < 128 ∧ (c == '$' || c == '_' || c.isAlpha) = found) :
    isIdentifierStart c = found := by
  rw [isIdentifierStart, (Text.classes_of_ascii h.1).1, h.2]

/-- The characters of ASCII within an identifier. -/
theorem isIdentifierPart_of_ascii {c : Char} {found : Bool}
    (h : c.toNat < 128 ∧ (c == '$' || (c.isAlphanum || c == '_')) = found) :
    isIdentifierPart c = found := by
  obtain ⟨hascii, hfound⟩ := h
  have hjoiner : (c == '\u200c') = false ∧ (c == '\u200d') = false := by
    constructor <;> (rw [beq_eq_false_iff_ne]; rintro rfl; exact absurd hascii (by decide))
  rw [isIdentifierPart, (Text.classes_of_ascii hascii).2.1, hjoiner.1, hjoiner.2, Bool.or_false,
    Bool.or_false, hfound]

/-- The first character of an identifier may stand within one. -/
theorem isIdentifierPart_of_isIdentifierStart {c : Char} (h : isIdentifierStart c = true) :
    isIdentifierPart c = true := by
  simp only [isIdentifierStart, Bool.or_eq_true, beq_iff_eq] at h
  rcases h with (rfl | rfl) | hletter
  · exact isIdentifierPart_of_ascii (by decide)
  · exact isIdentifierPart_of_ascii (by decide)
  · simp [isIdentifierPart, Text.isNamePart, hletter]

/-- A blank is no part of an identifier. -/
theorem isIdentifierPart_of_isBlank {c : Char} (h : isBlank c = true) :
    isIdentifierPart c = false := by
  have hblank : Text.Ranges.has
      ((0x0A, 0x0A) :: (0x0D, 0x0D) :: (0x2028, 0x2029) :: spaceRanges) c = true := by
    simp only [isBlank, isLineEnd, Bool.or_eq_true, beq_iff_eq] at h
    rcases h with (((rfl | rfl) | rfl) | rfl) | hspace
    · decide
    · decide
    · decide
    · decide
    · simp only [Text.Ranges.has] at hspace
      simp only [Text.Ranges.has, List.any_cons, hspace, Bool.or_true]
  have hword : Text.isWordChar c = false :=
    (Text.isWordChar_eq_has c).trans (Text.Ranges.not_has_of_disjoint (by decide +kernel) hblank)
  have hother : c ≠ '$' ∧ c ≠ '\u200c' ∧ c ≠ '\u200d' := by
    refine ⟨?_, ?_, ?_⟩ <;> (rintro rfl; exact absurd hblank (by decide))
  have hname : Text.isNamePart c = false := (Bool.or_eq_false_iff.1 hword).1
  simp [isIdentifierPart, hother, hname]

/-- A part of an identifier is none of the other characters. -/
theorem ne_of_isIdentifierPart {c other : Char} (h : isIdentifierPart c = true)
    (hother : isIdentifierPart other = false) : c ≠ other := by
  rintro rfl
  exact Bool.noConfusion (h.symm.trans hother)

/-- A part of an identifier is a token. -/
theorem isToken_of_isIdentifierPart {c : Char} (h : isIdentifierPart c = true) : IsToken c := by
  refine ⟨ne_of_isIdentifierPart h (isIdentifierPart_of_ascii (by decide)), ?_⟩
  cases hblank : isBlank c with
  | false => rfl
  | true => exact absurd rfl (ne_of_isIdentifierPart h (isIdentifierPart_of_isBlank hblank))

/-! ## Where a token ends -/

/-- The marks that stand behind a value or a key. -/
def IsMark (c : Char) : Prop :=
  c ∈ [',', ':', ']', '\x7d']

/-- A text behind a number or an identifier: it begins with a gap or a mark, if at all. -/
def EndsToken (text : List Char) : Prop :=
  ∀ c ∈ text.head?, isBlank c = true ∨ c = '/' ∨ IsMark c

/-- A token ends where a gap or a mark follows it. -/
theorem GapText.endsToken {ends : List Char → Prop} {gap : List Char} (h : GapText ends gap)
    {c : Char} (hc : IsMark c) (rest : List Char) : EndsToken (gap ++ c :: rest) := by
  cases h with
  | nil =>
    rintro _ ⟨⟩
    exact .inr (.inr hc)
  | blank hblank h =>
    rintro _ ⟨⟩
    exact .inl hblank
  | line hcomment hends h =>
    rintro _ ⟨⟩
    exact .inr (.inl rfl)
  | block hcomment h =>
    rintro _ ⟨⟩
    exact .inr (.inl rfl)

/-- Neither an identifier nor a number goes on where a token ends. -/
theorem EndsToken.head {text : List Char} (h : EndsToken text) {c : Char} (hc : c ∈ text.head?) :
    isIdentifierPart c = false ∧ c ≠ '\\' ∧ c ≠ '.' := by
  rcases h c hc with hblank | rfl | hmark
  · refine ⟨isIdentifierPart_of_isBlank hblank, ?_, ?_⟩ <;>
      (rintro rfl; exact absurd hblank (by decide))
  · exact ⟨isIdentifierPart_of_ascii (by decide), by decide, by decide⟩
  · simp only [IsMark, List.mem_cons, List.not_mem_nil, or_false] at hmark
    rcases hmark with rfl | rfl | rfl | rfl <;>
      exact ⟨isIdentifierPart_of_ascii (by decide), by decide, by decide⟩

/-- Where a token ends, no identifier begins. -/
theorem EndsToken.ne {text : List Char} (h : EndsToken text) {c : Char} (hc : c ∈ text.head?)
    {letter : Char}
    (hletter : letter.toNat < 128 ∧ (letter == '$' || (letter.isAlphanum || letter == '_')) = true) :
    c ≠ letter :=
  (ne_of_isIdentifierPart (isIdentifierPart_of_ascii hletter) (h.head hc).1).symm

/-! ## Strings -/

/-- Hexadecimal digits are read. -/
theorem HexText.reads {count : Nat} {digits : List Char} {value : Nat}
    (h : HexText count digits value) (rest : List Char) :
    Reads (hexDigits count) (digits ++ rest) value rest := by
  have hlength : ¬ (digits ++ rest).length < digits.length := by
    rw [List.length_append]
    omega
  rw [hexDigits, ← h.length, reads_get_bind, if_neg hlength, reads_set_bind, List.take_left,
    List.drop_left, h.value]
  rfl

/-- An escaped code unit is read as its character. -/
theorem reads_unicodeEscape {digits : List Char} {unit : Nat} (h : HexText 4 digits unit)
    (hunit : ¬ IsSurrogate unit) (rest : List Char) :
    Reads unicodeEscape (digits ++ rest) (Char.ofNat unit) rest := by
  rw [IsSurrogate] at hunit
  refine (h.reads rest).bind ?_
  rw [if_neg (by omega), if_neg (by omega)]
  exact reads_pure _ rest

/-- An escaped pair of code units is read as its character. -/
theorem reads_unicodeEscape_pair {high low : List Char} {first second : Nat}
    (hhigh : HexText 4 high first) (hlow : HexText 4 low second)
    (hfirst : 0xD800 ≤ first ∧ first ≤ 0xDBFF) (hsecond : 0xDC00 ≤ second ∧ second ≤ 0xDFFF)
    (rest : List Char) :
    Reads unicodeEscape (high ++ '\\' :: 'u' :: (low ++ rest))
      (Char.ofNat (0x10000 + (first - 0xD800) * 0x400 + (second - 0xDC00))) rest := by
  refine (hhigh.reads _).bind ?_
  rw [if_neg (by omega), if_pos hfirst]
  refine (reads_word ['\\', 'u'] (low ++ rest)).bind ((hlow.reads rest).bind ?_)
  rw [if_pos hsecond]
  exact reads_pure _ rest

/-- An escape is read. A carriage return takes a newline behind it along. -/
theorem Escape.reads {text chars : List Char} (h : Escape text (some chars)) {rest : List Char}
    (hrest : rest.head? ≠ some '\n') : Reads escape (text ++ rest) chars rest := by
  cases h with
  | control h =>
    simp only [controlLetters, List.mem_cons, Prod.mk.injEq, List.not_mem_nil, or_false] at h
    rcases h with ⟨rfl, rfl⟩ | ⟨rfl, rfl⟩ | ⟨rfl, rfl⟩ | ⟨rfl, rfl⟩ | ⟨rfl, rfl⟩ | ⟨rfl, rfl⟩ <;> rfl
  | @itself c hletter hdigit hline =>
    refine (reads_next c rest).bind ?_
    split
    -- none of the characters with a meaning of their own stands for itself
    all_goals try exact absurd hletter (by decide)
    · exact absurd hdigit (by decide)
    · exact absurd hline (by decide)
    · rw [hdigit, hline]
      exact reads_pure [c] rest
  | @lineEnd c h =>
    simp only [isLineEnd, Bool.or_eq_true, beq_iff_eq] at h
    rcases h with ((rfl | rfl) | rfl) | rfl
    · rfl
    · refine (reads_next '\r' rest).bind (reads_get_bind.2 ?_)
      split
      · exact absurd rfl hrest
      · exact reads_pure [] rest
    · rfl
    · rfl
  | returnNewline => rfl
  | byte h => exact (reads_next 'x' _).bind ((h.reads rest).map fun value => [Char.ofNat value])
  | unit h hunit =>
    exact (reads_next 'u' _).bind ((reads_unicodeEscape h hunit rest).map fun c => [c])
  | pair hhigh hlow hfirst hsecond =>
    rw [List.cons_append, List.append_assoc]
    exact (reads_next 'u' _).bind
      ((reads_unicodeEscape_pair hhigh hlow hfirst hsecond rest).map fun c => [c])

/-- An escaped zero is read where no digit follows it. -/
theorem reads_escape_zero {rest : List Char} (h : ∀ c ∈ rest.head?, c.isDigit = false) :
    Reads escape ('0' :: rest) ['\x00'] rest := by
  refine (reads_next '0' rest).bind (reads_get_bind.2 ?_)
  cases rest with
  | nil => rfl
  | cons c later =>
    simp only [List.head?_cons, h c rfl]
    exact reads_pure _ _

/-- Quotes are neither backslashes nor newlines. -/
theorem IsQuote.ne {quote : Char} (h : IsQuote quote) : quote ≠ '\\' ∧ quote ≠ '\n' := by
  rcases h with rfl | rfl <;> decide

/-- A string goes on with a character that is no newline. -/
theorem StringText.head {quote : Char} (hquote : IsQuote quote) {text : List Char}
    {chars : Option (List Char)} (h : StringText quote text chars) :
    ∃ c later, text = c :: later ∧ c ≠ '\n' := by
  cases h with
  | close => exact ⟨quote, [], rfl, hquote.ne.2⟩
  | plain _ _ hnewline _ _ => exact ⟨_, _, rfl, hnewline⟩
  | zero _ _ => exact ⟨_, _, rfl, by decide⟩
  | escape _ _ => exact ⟨_, _, rfl, by decide⟩

/-- The characters of a string are read up to the closing quote. -/
theorem StringText.reads {quote : Char} (hquote : IsQuote quote) {text : List Char}
    {meaning : Option (List Char)} (h : StringText quote text meaning) {chars : List Char}
    (hchars : meaning = some chars) {fuel : Nat} (hfuel : text.length < fuel) (rest : List Char) :
    Reads (stringChars quote fuel) (text ++ rest) chars rest := by
  induction h generalizing chars fuel with
  | close =>
    obtain ⟨fuel, rfl⟩ := Nat.exists_eq_succ_of_ne_zero (Nat.ne_zero_of_lt hfuel)
    obtain rfl := Option.some.inj hchars
    refine (reads_next quote rest).bind ?_
    rw [if_pos rfl]
    exact reads_pure [] rest
  | @plain c later found hother hslash hnewline hreturn h ih =>
    obtain ⟨fuel, rfl⟩ := Nat.exists_eq_succ_of_ne_zero (Nat.ne_zero_of_lt hfuel)
    obtain ⟨found, rfl, rfl⟩ := Option.map_eq_some_iff.1 hchars
    refine (reads_next c (later ++ rest)).bind ?_
    rw [if_neg hother, if_neg hslash, if_neg (not_or.2 ⟨hnewline, hreturn⟩)]
    exact (ih rfl (Nat.lt_of_succ_lt_succ hfuel)).map (c :: ·)
  | @zero later found hdigit h ih =>
    obtain ⟨fuel, rfl⟩ := Nat.exists_eq_succ_of_ne_zero (Nat.ne_zero_of_lt hfuel)
    obtain ⟨found, rfl, rfl⟩ := Option.map_eq_some_iff.1 hchars
    have hlength : later.length < fuel := Nat.lt_of_succ_lt (Nat.lt_of_succ_lt_succ hfuel)
    obtain ⟨c, others, rfl, -⟩ := h.head hquote
    have hzero : Reads Json5.escape ('0' :: (c :: others ++ rest)) ['\x00'] (c :: others ++ rest) :=
      reads_escape_zero hdigit
    refine (reads_next '\\' _).bind ?_
    rw [if_neg (Ne.symm hquote.ne.1), if_pos rfl]
    exact hzero.bind ((ih rfl hlength).map (['\x00'] ++ ·))
  | @escape text later found chars hescape h ih =>
    obtain ⟨fuel, rfl⟩ := Nat.exists_eq_succ_of_ne_zero (Nat.ne_zero_of_lt hfuel)
    obtain ⟨found, chars, rfl, rfl, rfl⟩ := Option.map₂_eq_some_iff.1 hchars
    have hlength : later.length < fuel := by
      rw [List.length_cons, List.length_append] at hfuel
      omega
    have hhead : (later ++ rest).head? ≠ some '\n' := by
      obtain ⟨c, others, rfl, hc⟩ := h.head hquote
      exact fun heq => hc (Option.some.inj heq)
    rw [List.cons_append, List.append_assoc]
    refine (reads_next '\\' _).bind ?_
    rw [if_neg (Ne.symm hquote.ne.1), if_pos rfl]
    exact (hescape.reads hhead).bind ((ih rfl hlength).map (found ++ ·))

/-- A string is read behind its opening quote. -/
theorem reads_stringTail_text {quote : Char} (hquote : IsQuote quote) {text chars : List Char}
    (h : StringText quote text (some chars)) (rest : List Char) :
    Reads (stringTail quote) (text ++ rest) (String.ofList chars) rest := by
  have hfuel : text.length < (text ++ rest).length + 1 := by
    rw [List.length_append]
    omega
  rw [stringTail, reads_get_bind]
  exact (h.reads hquote rfl hfuel rest).map String.ofList

/-! ## Keys -/

/-- A backslash stands for no character of an identifier. -/
theorem isAllowed_backslash (isFirst : Bool) : isAllowed isFirst '\\' = false := by
  cases isFirst with
  | true => exact isIdentifierStart_of_ascii (by decide)
  | false => exact isIdentifierPart_of_ascii (by decide)

/-- An identifier is read up to where it ends. -/
theorem IdentifierText.reads {isFirst : Bool} {text chars : List Char}
    (h : IdentifierText isFirst text chars) {rest : List Char} (hrest : EndsToken rest) {fuel : Nat}
    (hfuel : text.length < fuel) :
    Reads (identifierChars fuel isFirst) (text ++ rest) chars rest := by
  induction h generalizing fuel with
  | nil =>
    obtain ⟨fuel, rfl⟩ := Nat.exists_eq_succ_of_ne_zero (Nat.ne_zero_of_lt hfuel)
    cases rest with
    | nil => rfl
    | cons c later =>
      obtain ⟨hpart, hslash, -⟩ := hrest.head rfl
      have hallowed : isAllowed false c ≠ true := Bool.eq_false_iff.1 hpart
      rw [identifierChars, List.nil_append, reads_get_bind]
      split
      · rename_i heq
        cases heq
      · rename_i heq
        exact absurd (List.cons.inj heq).1 hslash
      · rename_i heq
        obtain ⟨rfl, rfl⟩ := List.cons.inj heq
        rw [if_neg hallowed]
        exact reads_pure [] _
  | @plain isFirst c later chars hc h ih =>
    obtain ⟨fuel, rfl⟩ := Nat.exists_eq_succ_of_ne_zero (Nat.ne_zero_of_lt hfuel)
    have hslash : c ≠ '\\' := by
      rintro rfl
      rw [isAllowed_backslash] at hc
      exact Bool.noConfusion hc
    rw [identifierChars, List.cons_append, reads_get_bind]
    split
    · rename_i heq
      cases heq
    · rename_i heq
      exact absurd (List.cons.inj heq).1 hslash
    · rename_i heq
      obtain ⟨rfl, rfl⟩ := List.cons.inj heq
      rw [if_pos hc, reads_set_bind]
      exact (ih (Nat.lt_of_succ_lt_succ hfuel)).map (c :: ·)
  | @escape isFirst digits later chars unit hunit hscalar hc h ih =>
    obtain ⟨fuel, rfl⟩ := Nat.exists_eq_succ_of_ne_zero (Nat.ne_zero_of_lt hfuel)
    have hlength : later.length < fuel := by
      simp only [List.length_cons, List.length_append] at hfuel
      omega
    have hchar := reads_unicodeEscape hunit hscalar (later ++ rest)
    rw [identifierChars, List.cons_append, List.cons_append, List.append_assoc, reads_get_bind]
    refine reads_set_bind.2 ((reads_word ['u'] _).bind (hchar.bind ?_))
    rw [if_pos hc]
    exact (ih hlength).map (Char.ofNat unit :: ·)

/-- A quote is a token. -/
theorem IsQuote.isToken {quote : Char} (h : IsQuote quote) : IsToken quote := by
  rcases h with rfl | rfl <;> decide

/-- An identifier begins with a token that is neither a quote nor a brace. -/
theorem IdentifierText.head {text chars : List Char} (h : IdentifierText true text chars) :
    ∃ c later, text = c :: later ∧ IsToken c ∧ ¬ IsQuote c ∧ c ≠ '\x7d' := by
  cases h with
  | @plain _ c later chars hc h =>
    have hpart := isIdentifierPart_of_isIdentifierStart hc
    have hother {other : Char}
        (h : other.toNat < 128 ∧ (other == '$' || (other.isAlphanum || other == '_')) = false) :
        c ≠ other := ne_of_isIdentifierPart hpart (isIdentifierPart_of_ascii h)
    exact ⟨c, later, rfl, isToken_of_isIdentifierPart hpart,
      not_or.2 ⟨hother (by decide), hother (by decide)⟩, hother (by decide)⟩
  | escape hunit hscalar hc h => exact ⟨'\\', _, rfl, by decide, by simp [IsQuote], by decide⟩

/-- A key begins with a token that is no brace. -/
theorem KeyText.head {text : List Char} {key : Option String} (h : KeyText text key) :
    ∃ c later, text = c :: later ∧ IsToken c ∧ c ≠ '\x7d' := by
  cases h with
  | identifier h =>
    obtain ⟨c, later, rfl, htoken, -, hbrace⟩ := h.head
    exact ⟨c, later, rfl, htoken, hbrace⟩
  | @quoted quote text chars hquote h =>
    refine ⟨quote, text, rfl, hquote.isToken, ?_⟩
    rcases hquote with rfl | rfl <;> decide

/-- A key is read up to where it ends. -/
theorem KeyText.reads {text : List Char} {found : Option String} (h : KeyText text found)
    {name : String} (hname : found = some name) {rest : List Char} (hrest : EndsToken rest) :
    Reads key (text ++ rest) name rest := by
  cases h with
  | @identifier text chars h =>
    obtain rfl := Option.some.inj hname
    obtain ⟨c, later, heq, htoken, hquote, -⟩ := h.head
    have hfuel : text.length < (text ++ rest).length + 1 := by
      rw [List.length_append]
      omega
    have hread := h.reads hrest hfuel
    have hchars : chars.isEmpty = false := by
      cases h <;> rfl
    have hpeek : Reads peekToken (text ++ rest) c (text ++ rest) := by
      rw [heq]
      exact reads_peekToken htoken _
    rw [key]
    refine hpeek.bind ?_
    rw [if_neg hquote, Json5.identifier, reads_get_bind]
    refine hread.bind ?_
    rw [hchars]
    exact reads_pure _ rest
  | @quoted quote text chars hquote h =>
    obtain ⟨chars, rfl, rfl⟩ := Option.map_eq_some_iff.1 hname
    rw [key]
    refine (reads_peekToken hquote.isToken (text ++ rest)).bind ?_
    rw [if_pos hquote]
    exact (reads_next quote _).bind (reads_stringTail_text hquote h rest)

end EditorFormat.Json5
