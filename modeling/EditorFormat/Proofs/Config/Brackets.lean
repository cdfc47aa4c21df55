import EditorFormat.Proofs.Config.Scanning

/-!
# The bracket that closes a literal

A script is made of pieces: strings, comments, brackets and other characters (`Pieces`). An object
literal goes from a brace to the first bracket with which as many brackets are closed as were
opened. `objectLiteral_takes_shortest` says that the search for a literal finds exactly this part of
the text, that it does not look at what is behind it, and that it finds nothing in less of it.
-/

namespace EditorFormat.Config.Script

open Json (Bracket)

/-! ## Pieces of a script -/

/-- A piece of a script that is no bracket, in front of the given text. A slash that begins a comment
is no piece of its own. -/
inductive Piece : List Char → List Char → Prop where
  | plain {c : Char} {after : List Char} (h : IsPlain c) : Piece [c] after
  | slash {after : List Char} (h : ∀ c ∈ after.head?, c ≠ '*' ∧ c ≠ '/') : Piece ['/'] after
  | string {mark : Char} {rest after : List Char} (hmark : IsStringMark mark)
      (h : StringRest mark rest) : Piece (mark :: rest) after
  | lineComment {comment after : List Char} (h : '\n' ∉ comment) :
      Piece ('/' :: '/' :: (comment ++ ['\n'])) after
  | blockComment {comment after : List Char} (h : ¬ ['*', '/'] <:+: comment) :
      Piece ('/' :: '*' :: (comment ++ ['*', '/'])) after

/-- A text of whole pieces, and how many brackets it opens and closes outside of strings and
comments. -/
inductive Pieces : List Char → Nat → Nat → Prop where
  | nil : Pieces [] 0 0
  | opening (bracket : Bracket) {rest : List Char} {opened closed : Nat}
      (h : Pieces rest opened closed) : Pieces (bracket.opening :: rest) (opened + 1) closed
  | closing (bracket : Bracket) {rest : List Char} {opened closed : Nat}
      (h : Pieces rest opened closed) : Pieces (bracket.closing :: rest) opened (closed + 1)
  | piece {piece rest : List Char} {opened closed : Nat} (hpiece : Piece piece rest)
      (h : Pieces rest opened closed) : Pieces (piece ++ rest) opened closed

/-- A text ends with a bracket in front of which one bracket more is opened than closed, when
`depth` brackets are open before it. -/
def EndsClosed (depth : Nat) (text : List Char) : Prop :=
  ∃ front bracket opened closed, text = front ++ [Bracket.closing bracket] ∧
    Pieces front opened closed ∧ depth + opened = closed + 1

/-- A text from a brace to a bracket with which as many brackets are closed as were opened. -/
structure Closes (text : List Char) : Prop where
  brace : text.head? = some '\x7b'
  ends : EndsClosed 0 text

/-- A literal is the shortest part that closes at the front of an expression. -/
structure IsShortest (literal expression : List Char) : Prop where
  front : literal <+: expression
  closes : Closes literal
  least : ∀ other, other <+: expression → Closes other → literal.length ≤ other.length

/-! ## Passing over pieces -/

section Passing

variable {depth : Nat} {piece after : List Char}

/-- A piece stays one in front of less text. -/
theorem Piece.of_append {rest : List Char} (h : Piece piece (after ++ rest)) :
    Piece piece after := by
  cases h with
  | plain h => exact .plain h
  | slash h =>
    refine .slash fun c hc => h c ?_
    rw [List.head?_append, Option.mem_def.1 hc]
    rfl
  | string hmark h => exact .string hmark h
  | lineComment h => exact .lineComment h
  | blockComment h => exact .blockComment h

/-- A piece stays one in front of a closing bracket. -/
theorem Piece.append_closing (h : Piece piece after) (bracket : Bracket) (rest : List Char) :
    Piece piece (after ++ bracket.closing :: rest) := by
  cases h with
  | plain h => exact .plain h
  | slash h =>
    refine .slash fun c hc => ?_
    cases after with
    | nil =>
      obtain rfl := Option.some.inj hc
      cases bracket <;> decide
    | cons first later => exact h c hc
  | string hmark h => exact .string hmark h
  | lineComment h => exact .lineComment h
  | blockComment h => exact .blockComment h

/-- A piece has characters. -/
theorem Piece.length_lt (h : Piece piece after) : after.length < (piece ++ after).length := by
  cases h <;> simp <;> omega

/-- A slash that begins no comment changes nothing. -/
theorem balanced_slash (h : ∀ c ∈ after.head?, c ≠ '*' ∧ c ≠ '/') :
    balanced .code depth ('/' :: after) = (balanced .code depth after).map ('/' :: ·) := by
  rw [balanced]
  · simp
  · rintro rest - rfl
    exact absurd rfl (h _ rfl).1
  · rintro rest - rfl
    exact absurd rfl (h _ rfl).2

/-- A piece is passed as a whole. -/
theorem Piece.passed (h : Piece piece after) :
    balanced .code depth (piece ++ after) = (balanced .code depth after).map (piece ++ ·) := by
  cases h with
  | plain h => exact balanced_plain h
  | slash h => exact balanced_slash h
  | string hmark h => exact balanced_string hmark h _ _
  | @lineComment comment _ h =>
    have hnewline : balanced .lineComment depth ('\n' :: after) =
        (balanced .code depth after).map ('\n' :: ·) := by simp [balanced]
    rw [List.cons_append, List.cons_append, List.append_assoc, List.singleton_append, balanced,
      balanced_lineComment h, hnewline, Option.map_map, Option.map_map]
    simp [Function.comp_def]
  | @blockComment comment _ h =>
    rw [List.cons_append, List.cons_append, List.append_assoc, List.cons_append,
      List.singleton_append, balanced, balanced_blockComment h Bool.noConfusion, Option.map_map]
    simp [Function.comp_def]

end Passing

/-! ## What a search passes -/

section Passed

variable {depth : Nat}

/-- A search that goes on in a string passes the rest of the string. -/
theorem stringRest_of_balanced {mark : Char} {text literal : List Char}
    (h : balanced (.quoted mark) depth text = some literal) :
    ∃ rest after later, StringRest mark rest ∧ text = rest ++ after ∧ literal = rest ++ later ∧
      balanced .code depth after = some later := by
  cases text with
  | nil => cases h
  | cons c others =>
    by_cases hslash : c = '\\'
    · -- a backslash takes the next character along
      cases others with
      | nil =>
        rw [balanced, if_pos hslash] at h
        cases h
      | cons d others =>
        rw [hslash, balanced_escape, Option.map_eq_some_iff] at h
        obtain ⟨found, hfound, rfl⟩ := h
        obtain ⟨rest, after, later, hrest, rfl, rfl, hafter⟩ := stringRest_of_balanced hfound
        rw [hslash]
        exact ⟨_, after, later, .escape d hrest, rfl, rfl, hafter⟩
    by_cases hmark : c = mark
    · rw [balanced] at h
      simp only [if_neg hslash, if_pos hmark] at h
      obtain ⟨later, hafter, rfl⟩ := Option.map_eq_some_iff.1 h
      rw [hmark]
      exact ⟨_, others, later, .close, rfl, rfl, hafter⟩
    · rw [balanced_quoted hmark hslash, Option.map_eq_some_iff] at h
      obtain ⟨found, hfound, rfl⟩ := h
      obtain ⟨rest, after, later, hrest, rfl, rfl, hafter⟩ := stringRest_of_balanced hfound
      exact ⟨_, after, later, .plain hmark hslash hrest, rfl, rfl, hafter⟩
termination_by text.length

/-- A search that goes on in a line comment passes the rest of the line. -/
theorem line_of_balanced {text literal : List Char}
    (h : balanced .lineComment depth text = some literal) :
    ∃ comment after later, '\n' ∉ comment ∧ text = comment ++ '\n' :: after ∧
      literal = comment ++ '\n' :: later ∧ balanced .code depth after = some later := by
  induction text generalizing literal with
  | nil => exact absurd h nofun
  | cons c others ih =>
    rw [balanced, Option.map_eq_some_iff] at h
    obtain ⟨found, hfound, rfl⟩ := h
    by_cases hc : c = '\n'
    · rw [if_pos hc] at hfound
      rw [hc]
      exact ⟨[], others, found, List.not_mem_nil, rfl, rfl, hfound⟩
    · rw [if_neg hc] at hfound
      obtain ⟨comment, after, later, hcomment, rfl, rfl, hafter⟩ := ih hfound
      refine ⟨c :: comment, after, later, ?_, rfl, rfl, hafter⟩
      rw [List.mem_cons, not_or]
      exact ⟨Ne.symm hc, hcomment⟩

/-- No comment ends where one more character in front of it makes no end. -/
theorem not_infix_cons {c : Char} {comment : List Char} (h : ¬ ['*', '/'] <:+: comment)
    (hc : c = '*' → comment.head? ≠ some '/') : ¬ ['*', '/'] <:+: c :: comment := by
  rw [List.infix_cons_iff, not_or]
  refine ⟨?_, h⟩
  rintro ⟨rest, heq⟩
  obtain ⟨rfl, rfl⟩ := List.cons.inj heq
  exact hc rfl rfl

/-- A search that goes on in a block comment passes the rest of the comment. A star that was just
read may be a part of its end. -/
theorem block_of_balanced {text literal : List Char} {star : Bool}
    (h : balanced (.blockComment star) depth text = some literal) :
    ∃ comment after later, ¬ ['*', '/'] <:+: comment ∧
      (if star then ['*'] else []) ++ text = comment ++ '*' :: '/' :: after ∧
      (if star then ['*'] else []) ++ literal = comment ++ '*' :: '/' :: later ∧
        balanced .code depth after = some later := by
  induction text generalizing literal star with
  | nil => exact absurd h nofun
  | cons c others ih =>
    rw [balanced, Option.map_eq_some_iff] at h
    obtain ⟨found, hfound, rfl⟩ := h
    by_cases hend : (star && c = '/') = true
    · rw [if_pos hend] at hfound
      obtain ⟨rfl, hc⟩ := Bool.and_eq_true_iff.1 hend
      rw [of_decide_eq_true hc]
      exact ⟨[], others, found, by decide, rfl, rfl, hfound⟩
    · rw [if_neg hend] at hfound
      obtain ⟨comment, after, later, hcomment, htext, hliteral, hafter⟩ := ih hfound
      -- the comment from this character on
      obtain ⟨longer, hlonger, hhead, htext, hliteral⟩ : ∃ longer, ¬ ['*', '/'] <:+: longer ∧
          (star = true → longer.head? ≠ some '/') ∧
          c :: others = longer ++ '*' :: '/' :: after ∧
          c :: found = longer ++ '*' :: '/' :: later := by
        by_cases hc : c = '*'
        · simp only [hc, decide_true, if_true, List.singleton_append] at htext hliteral ⊢
          refine ⟨comment, hcomment, fun _ hslash => ?_, htext, hliteral⟩
          obtain ⟨rest, rfl⟩ := List.head?_eq_some_iff.1 hslash
          exact absurd (List.cons.inj htext).1 (by decide)
        · simp only [hc, decide_false, Bool.false_eq_true, if_false, List.nil_append]
            at htext hliteral
          refine ⟨c :: comment, not_infix_cons hcomment fun h => absurd h hc, ?_, ?_, ?_⟩
          · rintro rfl hslash
            obtain rfl := Option.some.inj hslash
            exact hend (by decide)
          · rw [htext, List.cons_append]
          · rw [hliteral, List.cons_append]
      rw [htext, hliteral]
      cases star with
      | false => exact ⟨longer, after, later, hlonger, rfl, rfl, hafter⟩
      | true =>
        exact ⟨'*' :: longer, after, later, not_infix_cons hlonger fun _ => hhead rfl, rfl, rfl,
          hafter⟩

/-- A search that goes on behind a slash passes the comment that the slash begins, or the slash. -/
theorem slash_of_balanced {rest literal : List Char}
    (h : balanced .code depth ('/' :: rest) = some literal) :
    ∃ piece after later, Piece piece after ∧ '/' :: rest = piece ++ after ∧
      literal = piece ++ later ∧ balanced .code depth after = some later := by
  by_cases hstar : rest.head? = some '*'
  · obtain ⟨others, rfl⟩ := List.head?_eq_some_iff.1 hstar
    rw [balanced, Option.map_eq_some_iff] at h
    obtain ⟨found, hfound, rfl⟩ := h
    obtain ⟨comment, after, later, hcomment, htext, hliteral, hafter⟩ := block_of_balanced hfound
    simp only [Bool.false_eq_true, if_false, List.nil_append] at htext hliteral
    refine ⟨_, after, later, .blockComment hcomment, ?_, ?_, hafter⟩
    · simp [htext]
    · simp [hliteral]
  by_cases hslash : rest.head? = some '/'
  · obtain ⟨others, rfl⟩ := List.head?_eq_some_iff.1 hslash
    rw [balanced, Option.map_eq_some_iff] at h
    obtain ⟨found, hfound, rfl⟩ := h
    obtain ⟨comment, after, later, hcomment, rfl, rfl, hafter⟩ := line_of_balanced hfound
    refine ⟨_, after, later, .lineComment hcomment, ?_, ?_, hafter⟩ <;> simp
  · have hplain : ∀ c ∈ rest.head?, c ≠ '*' ∧ c ≠ '/' := by
      intro c hc
      constructor
      · rintro rfl
        exact hstar hc
      · rintro rfl
        exact hslash hc
    rw [balanced_slash hplain, Option.map_eq_some_iff] at h
    obtain ⟨later, hafter, rfl⟩ := h
    exact ⟨['/'], rest, later, .slash hplain, rfl, rfl, hafter⟩

/-- A search in code reads a bracket or another piece first, and it ends with the bracket that closes
the last one that is open. -/
theorem balanced_cases {text literal : List Char} (h : balanced .code depth text = some literal) :
    (∃ bracket after, depth ≤ 1 ∧ text = Bracket.closing bracket :: after ∧
      literal = [bracket.closing]) ∨
    (∃ bracket after later, 1 < depth ∧ text = Bracket.closing bracket :: after ∧
      literal = bracket.closing :: later ∧ balanced .code (depth - 1) after = some later) ∨
    (∃ bracket after later, text = Bracket.opening bracket :: after ∧
      literal = bracket.opening :: later ∧ balanced .code (depth + 1) after = some later) ∨
    ∃ piece after later, Piece piece after ∧ text = piece ++ after ∧ literal = piece ++ later ∧
      balanced .code depth after = some later := by
  cases text with
  | nil => exact absurd h nofun
  | cons c rest =>
    by_cases hclosing : ∃ bracket, c = Bracket.closing bracket
    · obtain ⟨bracket, rfl⟩ := hclosing
      by_cases hdepth : depth ≤ 1
      · rw [balanced_last bracket hdepth] at h
        exact .inl ⟨bracket, rest, hdepth, rfl, (Option.some.inj h).symm⟩
      · have hopen : 1 < depth := by omega
        rw [balanced_closing bracket hopen, Option.map_eq_some_iff] at h
        obtain ⟨later, hafter, rfl⟩ := h
        exact .inr (.inl ⟨bracket, rest, later, hopen, rfl, rfl, hafter⟩)
    by_cases hopening : ∃ bracket, c = Bracket.opening bracket
    · obtain ⟨bracket, rfl⟩ := hopening
      rw [balanced_opening, Option.map_eq_some_iff] at h
      obtain ⟨later, hafter, rfl⟩ := h
      exact .inr (.inr (.inl ⟨bracket, rest, later, rfl, rfl, hafter⟩))
    refine .inr (.inr (.inr ?_))
    by_cases hmark : IsStringMark c
    · rw [balanced_mark hmark, Option.map_eq_some_iff] at h
      obtain ⟨found, hfound, rfl⟩ := h
      obtain ⟨others, after, later, hothers, rfl, rfl, hafter⟩ := stringRest_of_balanced hfound
      exact ⟨_, after, later, .string hmark hothers, rfl, rfl, hafter⟩
    by_cases hslash : c = '/'
    · rw [hslash] at h ⊢
      exact slash_of_balanced h
    · have hplain : IsPlain c := by
        intro hmem
        simp only [List.mem_cons, List.not_mem_nil, or_false] at hmem
        rcases hmem with rfl | rfl | rfl | rfl | rfl | rfl | rfl | rfl
        · exact hmark (.inl rfl)
        · exact hmark (.inr (.inl rfl))
        · exact hmark (.inr (.inr rfl))
        · exact hopening ⟨.curly, rfl⟩
        · exact hopening ⟨.square, rfl⟩
        · exact hclosing ⟨.curly, rfl⟩
        · exact hclosing ⟨.square, rfl⟩
        · exact hslash rfl
      rw [balanced_plain hplain, Option.map_eq_some_iff] at h
      obtain ⟨later, hafter, rfl⟩ := h
      exact ⟨[c], rest, later, .plain hplain, rfl, rfl, hafter⟩

end Passed

/-! ## What a search finds -/

/-- A search finds a front part of the text that ends closed, and it finds it again whatever is
behind it. -/
theorem found_of_balanced {depth : Nat} {text literal : List Char} (hdepth : 0 < depth)
    (h : balanced .code depth text = some literal) :
    literal <+: text ∧ EndsClosed depth literal ∧
      ∀ rest, balanced .code depth (literal ++ rest) = some literal := by
  rcases balanced_cases h with ⟨bracket, after, hle, rfl, rfl⟩ |
    ⟨bracket, after, later, hless, rfl, rfl, hafter⟩ |
    ⟨bracket, after, later, rfl, rfl, hafter⟩ | ⟨piece, after, later, hpiece, rfl, rfl, hafter⟩
  · refine ⟨⟨after, rfl⟩, ⟨[], bracket, 0, 0, rfl, .nil, by omega⟩, fun rest => ?_⟩
    exact balanced_last bracket hle
  · have hopen : 0 < depth - 1 := by omega
    obtain ⟨hfront, ⟨front, last, opened, closed, rfl, hpieces, hcount⟩, hagain⟩ :=
      found_of_balanced hopen hafter
    refine ⟨List.cons_prefix_cons.2 ⟨rfl, hfront⟩,
      ⟨_, last, opened, closed + 1, rfl, .closing bracket hpieces, by omega⟩, fun rest => ?_⟩
    rw [List.cons_append, balanced_closing bracket hless, hagain]
    rfl
  · obtain ⟨hfront, ⟨front, last, opened, closed, rfl, hpieces, hcount⟩, hagain⟩ :=
      found_of_balanced (Nat.succ_pos depth) hafter
    refine ⟨List.cons_prefix_cons.2 ⟨rfl, hfront⟩,
      ⟨_, last, opened + 1, closed, rfl, .opening bracket hpieces, by omega⟩, fun rest => ?_⟩
    rw [List.cons_append, balanced_opening, hagain]
    rfl
  · have hshorter := hpiece.length_lt
    obtain ⟨⟨behind, rfl⟩, ⟨front, last, opened, closed, rfl, hpieces, hcount⟩, hagain⟩ :=
      found_of_balanced hdepth hafter
    -- behind the last bracket any text may follow
    rw [List.append_assoc, List.singleton_append] at hpiece
    have hfront := hpiece.of_append
    refine ⟨⟨behind, ?_⟩, ⟨piece ++ front, last, opened, closed, ?_, .piece hfront hpieces, hcount⟩,
      fun rest => ?_⟩
    · rw [List.append_assoc, List.append_assoc]
    · rw [List.append_assoc]
    · have hbefore := hfront.append_closing last rest
      have hpassed : balanced .code depth (piece ++ (front ++ last.closing :: rest)) = _ :=
        hbefore.passed
      have hagain := hagain rest
      rw [List.append_assoc, List.singleton_append] at hagain
      rw [List.append_assoc, List.append_assoc, List.singleton_append, hpassed, hagain]
      rfl
termination_by text.length

/-- A text in front of which no more brackets are open than it closes is not searched in vain. -/
theorem exists_found {depth : Nat} {front : List Char} {opened closed : Nat}
    (h : Pieces front opened closed) (hcount : depth + opened ≤ closed + 1) (bracket : Bracket)
    (rest : List Char) :
    ∃ literal, balanced .code depth (front ++ bracket.closing :: rest) = some literal := by
  induction h generalizing depth with
  | nil =>
    have hdepth : depth ≤ 1 := by omega
    exact ⟨_, balanced_last bracket hdepth⟩
  | opening other h ih =>
    obtain ⟨literal, hliteral⟩ := @ih (depth + 1) (by omega)
    rw [List.cons_append, balanced_opening, hliteral]
    exact ⟨_, rfl⟩
  | closing other h ih =>
    rw [List.cons_append]
    by_cases hdepth : depth ≤ 1
    · exact ⟨_, balanced_last other hdepth⟩
    · have hopen : 1 < depth := by omega
      obtain ⟨literal, hliteral⟩ := @ih (depth - 1) (by omega)
      rw [balanced_closing other hopen, hliteral]
      exact ⟨_, rfl⟩
  | piece hpiece h ih =>
    obtain ⟨literal, hliteral⟩ := ih hcount
    rw [List.append_assoc, (hpiece.append_closing bracket rest).passed, hliteral]
    exact ⟨_, rfl⟩

/-! ## Object literals -/

variable {expression literal : List Char}

/-- A search begins behind the brace that opens the literal. -/
theorem objectLiteral_brace (rest : List Char) :
    objectLiteral ('\x7b' :: rest) =
      match balanced .code 1 rest with
      | some inner => .ok ('\x7b' :: inner)
      | none => .error .unterminated := by
  have hbrace : balanced .code 0 ('\x7b' :: rest) =
      (balanced .code 1 rest).map ('\x7b' :: ·) := balanced_opening .curly
  rw [objectLiteral, hbrace]
  cases balanced .code 1 rest <;> rfl

/-- Without a brace there is no object. -/
theorem objectLiteral_of_head (h : expression.head? ≠ some '\x7b') :
    objectLiteral expression = .error .notObject := by
  rw [objectLiteral]
  rintro rest rfl
  exact h rfl

/-- A literal that is found closes at the front of the expression, and it is found again whatever is
behind it. -/
theorem closes_of_objectLiteral (h : objectLiteral expression = .ok literal) :
    literal <+: expression ∧ Closes literal ∧
      ∀ rest, objectLiteral (literal ++ rest) = .ok literal := by
  by_cases hbrace : expression.head? = some '\x7b'
  · obtain ⟨rest, rfl⟩ := List.head?_eq_some_iff.1 hbrace
    rw [objectLiteral_brace] at h
    cases hfound : balanced .code 1 rest with
    | none =>
      rw [hfound] at h
      exact absurd h nofun
    | some inner =>
      rw [hfound] at h
      obtain rfl := Except.ok.inj h
      obtain ⟨hfront, ⟨front, bracket, opened, closed, rfl, hpieces, hcount⟩, hagain⟩ :=
        found_of_balanced Nat.one_pos hfound
      refine ⟨List.cons_prefix_cons.2 ⟨rfl, hfront⟩, ⟨rfl, ?_⟩, fun rest => ?_⟩
      · exact ⟨_, bracket, opened + 1, closed, rfl, .opening .curly hpieces, by omega⟩
      · rw [List.cons_append, objectLiteral_brace, hagain]
  · rw [objectLiteral_of_head hbrace] at h
    exact absurd h nofun

/-- Where a text closes at the front of an expression, a literal is found. -/
theorem exists_objectLiteral (h : Closes literal) (rest : List Char) :
    ∃ found, objectLiteral (literal ++ rest) = .ok found := by
  obtain ⟨hbrace, front, bracket, opened, closed, rfl, hpieces, hcount⟩ := h
  obtain ⟨found, hfound⟩ := exists_found hpieces (Nat.le_of_eq hcount) bracket rest
  obtain ⟨others, hothers⟩ := List.head?_eq_some_iff.1 hbrace
  have htext : front ++ bracket.closing :: rest = '\x7b' :: (others ++ rest) := by
    rw [← List.cons_append, ← hothers, List.append_assoc, List.singleton_append]
  have hbrace : balanced .code 0 ('\x7b' :: (others ++ rest)) =
      (balanced .code 1 (others ++ rest)).map ('\x7b' :: ·) := balanced_opening .curly
  rw [htext, hbrace, Option.map_eq_some_iff] at hfound
  obtain ⟨inner, hinner, -⟩ := hfound
  rw [hothers, List.cons_append, objectLiteral_brace, hinner]
  exact ⟨_, rfl⟩

/-- What is found is the shortest literal. -/
theorem isShortest_of_objectLiteral (h : objectLiteral expression = .ok literal) :
    IsShortest literal expression := by
  obtain ⟨hfront, hcloses, -⟩ := closes_of_objectLiteral h
  refine ⟨hfront, hcloses, fun other hother hclosesOther => ?_⟩
  obtain ⟨rest, rfl⟩ := hother
  -- what is found in the other text is found in all of the expression
  have hsame : objectLiteral other = .ok literal := by
    obtain ⟨found, hfound⟩ := exists_objectLiteral hclosesOther []
    rw [List.append_nil] at hfound
    obtain ⟨⟨behind, hbehind⟩, -, hagain⟩ := closes_of_objectLiteral hfound
    have hwhole := hagain (behind ++ rest)
    rw [← List.append_assoc, hbehind, h] at hwhole
    rw [hfound, hwhole]
  exact (closes_of_objectLiteral hsame).1.length_le

/-- In less than the literal nothing is found. -/
theorem exists_error_of_front {shorter : List Char} (h : objectLiteral expression = .ok literal)
    (hshorter : shorter <+: literal) (hne : shorter ≠ literal) :
    ∃ error, objectLiteral shorter = .error error := by
  cases hfound : objectLiteral shorter with
  | error error => exact ⟨error, rfl⟩
  | ok found =>
    obtain ⟨hfront, hcloses, -⟩ := closes_of_objectLiteral hfound
    obtain ⟨hliteral, -, -⟩ := closes_of_objectLiteral h
    have hleast := (isShortest_of_objectLiteral h).least found
      (hfront.trans (hshorter.trans hliteral)) hcloses
    have hlength : literal.length ≤ shorter.length := Nat.le_trans hleast hfront.length_le
    exact absurd (hshorter.eq_of_length_le hlength) hne

/-- Which part of an expression is its literal, what plays no role for it, and when there is none. -/
structure TakesShortest (expression : List Char) : Prop where
  ok_iff : ∀ literal, objectLiteral expression = .ok literal ↔ IsShortest literal expression
  whatever_follows : ∀ literal, objectLiteral expression = .ok literal →
    ∀ rest, objectLiteral (literal ++ rest) = .ok literal
  nothing_shorter : ∀ literal, objectLiteral expression = .ok literal →
    ∀ shorter, shorter <+: literal → shorter ≠ literal →
      ∃ error, objectLiteral shorter = .error error
  notObject_iff : objectLiteral expression = .error .notObject ↔ expression.head? ≠ some '\x7b'
  unterminated_iff : objectLiteral expression = .error .unterminated ↔
    expression.head? = some '\x7b' ∧ ¬ ∃ literal, literal <+: expression ∧ Closes literal
  error_iff : (∃ error, objectLiteral expression = .error error) ↔
    expression.head? ≠ some '\x7b' ∨ ¬ ∃ literal, literal <+: expression ∧ Closes literal

/-- A search that fails has not found a brace, or not the end of the literal. -/
theorem objectLiteral_cases (expression : List Char) :
    (expression.head? ≠ some '\x7b' ∧ objectLiteral expression = .error .notObject) ∨
      (expression.head? = some '\x7b' ∧ (¬ ∃ literal, literal <+: expression ∧ Closes literal) ∧
        objectLiteral expression = .error .unterminated) ∨
      ∃ literal, objectLiteral expression = .ok literal := by
  by_cases hbrace : expression.head? = some '\x7b'
  · obtain ⟨rest, rfl⟩ := List.head?_eq_some_iff.1 hbrace
    cases hfound : objectLiteral ('\x7b' :: rest) with
    | ok literal => exact .inr (.inr ⟨literal, rfl⟩)
    | error error =>
      refine .inr (.inl ⟨rfl, ?_, ?_⟩)
      · rintro ⟨literal, ⟨behind, hbehind⟩, hcloses⟩
        obtain ⟨found, hok⟩ := exists_objectLiteral hcloses behind
        rw [hbehind, hfound] at hok
        exact absurd hok nofun
      · rw [objectLiteral_brace] at hfound
        cases hinner : balanced .code 1 rest with
        | none =>
          rw [hinner] at hfound
          exact hfound.symm
        | some inner =>
          rw [hinner] at hfound
          exact absurd hfound nofun
  · exact .inl ⟨hbrace, objectLiteral_of_head hbrace⟩

/-- An expression that begins with a literal begins with a brace. -/
theorem head_of_closes (hfront : literal <+: expression) (h : Closes literal) :
    expression.head? = some '\x7b' := by
  obtain ⟨rest, rfl⟩ := hfront
  rw [List.head?_append, h.brace]
  rfl

/-- The shortest literal is found. -/
theorem objectLiteral_of_isShortest (h : IsShortest literal expression) :
    objectLiteral expression = .ok literal := by
  rcases objectLiteral_cases expression with ⟨hhead, -⟩ | ⟨-, hnone, -⟩ | ⟨found, hfound⟩
  · exact absurd (head_of_closes h.front h.closes) hhead
  · exact absurd ⟨literal, h.front, h.closes⟩ hnone
  · have hshortest := isShortest_of_objectLiteral hfound
    have hle := hshortest.least literal h.front h.closes
    have hge := h.least found hshortest.front hshortest.closes
    have hpart := List.prefix_of_prefix_length_le hshortest.front h.front hle
    rw [hfound, hpart.eq_of_length_le hge]

/-- The literal at the front of an expression is the shortest part from a brace to the bracket with
which all brackets are closed, those in strings and comments left out. Nothing behind it plays
a role, and less of it is no literal. -/
theorem objectLiteral_takes_shortest (expression : List Char) : TakesShortest expression := by
  refine ⟨fun literal => ⟨isShortest_of_objectLiteral, objectLiteral_of_isShortest⟩,
    fun literal h => (closes_of_objectLiteral h).2.2,
    fun literal h shorter => exists_error_of_front h, ?_, ?_, ?_⟩
  all_goals
    rcases objectLiteral_cases expression with
      ⟨hhead, heq⟩ | ⟨hhead, hnone, heq⟩ | ⟨literal, heq⟩
  · exact ⟨fun _ => hhead, fun _ => heq⟩
  · rw [heq]
    exact ⟨nofun, fun h => absurd hhead h⟩
  · obtain ⟨hfront, hcloses, -⟩ := closes_of_objectLiteral heq
    rw [heq]
    exact ⟨nofun, fun h => absurd (head_of_closes hfront hcloses) h⟩
  · rw [heq]
    exact ⟨nofun, fun h => absurd h.1 hhead⟩
  · exact ⟨fun _ => ⟨hhead, hnone⟩, fun _ => heq⟩
  · obtain ⟨hfront, hcloses, -⟩ := closes_of_objectLiteral heq
    rw [heq]
    exact ⟨nofun, fun h => absurd ⟨literal, hfront, hcloses⟩ h.2⟩
  · exact ⟨fun _ => .inl hhead, fun _ => ⟨_, heq⟩⟩
  · exact ⟨fun _ => .inr hnone, fun _ => ⟨_, heq⟩⟩
  · obtain ⟨hfront, hcloses, -⟩ := closes_of_objectLiteral heq
    refine ⟨?_, ?_⟩
    · rintro ⟨error, herror⟩
      rw [heq] at herror
      exact absurd herror nofun
    · rintro (hhead | hnone)
      · exact absurd (head_of_closes hfront hcloses) hhead
      · exact absurd ⟨literal, hfront, hcloses⟩ hnone

-- A comment is not closed by the star that opens it, nor a string by a mark behind a backslash.
example : objectLiteral "\x7b/*/\x7d*/\x27\\\x27\x7d\x27\x7d;\x7d".toList =
    .ok "\x7b/*/\x7d*/\x27\\\x27\x7d\x27\x7d".toList := by
  rfl

end EditorFormat.Config.Script
