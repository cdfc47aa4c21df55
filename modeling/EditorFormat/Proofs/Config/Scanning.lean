import EditorFormat.Proofs.Config.Exports
import EditorFormat.Proofs.Json5.Values

/-!
# Object literals that are JSON5

The search for the end of an object literal knows strings and comments of its own. It passes over
every text of the JSON5 grammar as a whole (`skipped_of_denotes`), so the literal that it finds is
the JSON5 object, whatever follows it, and the options are those of the object's value
(`object_is_taken_whole`).

There is one exception. The search takes a line comment to go on to a newline, while a line of JSON5
also ends at a carriage return alone and at the line and paragraph separators. What such a line
comment hides from the search is not hidden from the reader (`lone_return_hides_literal`).
-/

namespace EditorFormat.Config.Script

open Json (Value Bracket)
open Json5 (Denotes GapText HexText KeyText NumberText StringText IsObject IsQuote IdentifierText
  LineEnds NewlineAhead NewlineEnds isIdentifierPart)

/-! ## Gaps -/

section Gaps

variable {depth : Nat} {comment rest : List Char}

/-- A blank changes nothing. -/
theorem isPlain_of_isBlank {c : Char} (h : Json5.isBlank c = true) : IsPlain c := by
  intro hmem
  simp only [List.mem_cons, List.not_mem_nil, or_false] at hmem
  rcases hmem with rfl | rfl | rfl | rfl | rfl | rfl | rfl | rfl <;> exact absurd h (by decide)

/-- A line comment goes on while there is no newline. -/
theorem balanced_lineComment (h : '\n' ∉ comment) :
    balanced .lineComment depth (comment ++ rest) =
      (balanced .lineComment depth rest).map (comment ++ ·) := by
  induction comment with
  | nil => simp
  | cons c later ih =>
    obtain ⟨hc, hlater⟩ := not_or.1 (mt List.mem_cons.2 h)
    rw [List.cons_append, balanced, if_neg (Ne.symm hc), ih hlater, Option.map_map]
    rfl

/-- Blanks up to a newline are the same in a line comment and behind it. -/
theorem balanced_newlineAhead (h : NewlineAhead rest) (after : List Char) :
    balanced .lineComment depth (rest ++ after) = balanced .code depth (rest ++ after) := by
  obtain ⟨blanks, later, hblanks, rfl⟩ := h
  induction blanks with
  | nil =>
    rw [List.nil_append, List.cons_append, balanced_plain (by decide), balanced, if_pos rfl]
  | cons c others ih =>
    obtain ⟨hc, hothers⟩ := List.forall_mem_cons.1 hblanks
    rw [List.cons_append, List.cons_append, balanced_plain (isPlain_of_isBlank hc), balanced,
      ← ih hothers]
    by_cases hnewline : c = '\n'
    · rw [if_pos hnewline, ih hothers]
    · rw [if_neg hnewline]

/-- A block comment goes on to its end. -/
theorem balanced_blockComment (h : ¬ ['*', '/'] <:+: comment) {star : Bool}
    (hstar : star = true → comment.head? ≠ some '/') :
    balanced (.blockComment star) depth (comment ++ '*' :: '/' :: rest) =
      (balanced .code depth rest).map (comment ++ '*' :: '/' :: ·) := by
  induction comment generalizing star with
  | nil =>
    simp [balanced]
    rfl
  | cons c later ih =>
    obtain ⟨hlater, hhead⟩ := Json5.of_not_infix_cons h
    have hopen : ¬ (star && c = '/') = true := by
      rw [Bool.and_eq_true, decide_eq_true_eq]
      rintro ⟨hstarred, rfl⟩
      exact hstar hstarred rfl
    rw [List.cons_append, balanced, if_neg hopen, ih hlater fun hc => hhead (of_decide_eq_true hc),
      Option.map_map]
    rfl

end Gaps

/-- A gap is skipped if each line comment in it ends at a newline. -/
theorem skipped_gap {gap : List Char} (h : GapText NewlineAhead gap) : Skipped gap := by
  induction h with
  | nil => exact skipped_plain (List.forall_mem_nil _)
  | @blank c later hblank h ih =>
    have hc : Skipped [c] := skipped_plain fun d hd => by
      rw [List.mem_singleton.1 hd]
      exact isPlain_of_isBlank hblank
    exact hc.append ih
  | @line comment later hcomment hends h ih =>
    intro depth rest hdepth
    have hnewline : '\n' ∉ comment := fun hmem => absurd (hcomment _ hmem) (by decide)
    rw [List.cons_append, List.cons_append, List.append_assoc, balanced,
      balanced_lineComment hnewline, balanced_newlineAhead hends, ih hdepth]
    simp [Function.comp_def]
  | @block comment later hcomment h ih =>
    intro depth rest hdepth
    rw [List.cons_append, List.cons_append, List.append_assoc, List.cons_append, List.cons_append,
      balanced, balanced_blockComment hcomment Bool.noConfusion, ih hdepth]
    simp [Function.comp_def]

/-! ## Strings -/

section Strings

variable {quote : Char} {text rest : List Char}

/-- Hexadecimal digits have no meaning in a string. -/
theorem ne_of_hexText (hquote : IsQuote quote) {count value : Nat} {digits : List Char}
    (h : HexText count digits value) : ∀ c ∈ digits, c ≠ quote ∧ c ≠ '\\' := by
  intro c hc
  have hhex := Json5.hexDigit_of_foldlM h.value c hc
  rcases hquote with rfl | rfl <;> constructor <;> (rintro rfl; exact absurd hhex (by decide))

/-- Behind its first character an escape has none with a meaning, but for the backslash that it may
hold. -/
theorem stringRest_escape (hquote : IsQuote quote) {found : Option (List Char)}
    (h : Json5.Escape text found) (hrest : StringRest quote rest) :
    StringRest quote ('\\' :: (text ++ rest)) := by
  cases h with
  | control h => exact .escape _ hrest
  | itself hletter hdigit hline => exact .escape _ hrest
  | lineEnd h => exact .escape _ hrest
  | returnNewline => exact .escape '\r' (.plain (Ne.symm hquote.ne.2) (by decide) hrest)
  | byte h => exact .escape 'x' (.append (ne_of_hexText hquote h) hrest)
  | unit h hunit => exact .escape 'u' (.append (ne_of_hexText hquote h) hrest)
  | surrogate h hunit => exact .escape 'u' (.append (ne_of_hexText hquote h) hrest)
  | @pair high low first second hhigh hlow hfirst hsecond =>
    have hbehind : StringRest quote ('\\' :: 'u' :: (low ++ rest)) :=
      .escape 'u' (.append (ne_of_hexText hquote hlow) hrest)
    have hboth := StringRest.append (ne_of_hexText hquote hhigh) hbehind
    rw [List.cons_append, List.append_assoc, List.cons_append, List.cons_append]
    exact .escape 'u' hboth

/-- A string of JSON5 ends where the search takes it to end. -/
theorem stringRest_of_stringText (hquote : IsQuote quote) {chars : Option (List Char)}
    (h : StringText quote text chars) : StringRest quote text := by
  induction h with
  | close => exact .close
  | plain hother hslash hnewline hreturn h ih => exact .plain hother hslash ih
  | zero hdigit h ih => exact .escape '0' ih
  | escape hescape h ih => exact stringRest_escape hquote hescape ih

/-- A string is skipped from its opening quote on. -/
theorem skipped_stringText (hquote : IsQuote quote) {chars : Option (List Char)}
    (h : StringText quote text chars) : Skipped (quote :: text) := by
  have hmark : IsStringMark quote := by
    rcases hquote with rfl | rfl
    · exact .inl rfl
    · exact .inr (.inl rfl)
  exact fun depth rest _ => balanced_string hmark (stringRest_of_stringText hquote h) depth rest

end Strings

/-! ## Plain tokens -/

/-- A part of an identifier is plain. -/
theorem isPlain_of_isIdentifierPart {c : Char} (h : isIdentifierPart c = true) : IsPlain c := by
  intro hmem
  have hnone : isIdentifierPart c = false := by
    simp only [List.mem_cons, List.not_mem_nil, or_false] at hmem
    rcases hmem with rfl | rfl | rfl | rfl | rfl | rfl | rfl | rfl <;>
      exact Json5.isIdentifierPart_of_ascii (by decide)
  exact Bool.noConfusion (hnone.symm.trans h)

/-- Hexadecimal digits are plain. -/
theorem isPlain_of_hexValue? {digits : List Char} {value : Nat}
    (h : Json.Reader.hexValue? digits = some value) : ∀ c ∈ digits, IsPlain c := fun c hc =>
  isPlain_of_isIdentifierPart (Json5.isIdentifierPart_of_hexDigit (Json5.hexDigit_of_foldlM h c hc))

/-- An identifier is plain. -/
theorem isPlain_of_identifierText {isFirst : Bool} {text chars : List Char}
    (h : IdentifierText isFirst text chars) : ∀ c ∈ text, IsPlain c := by
  induction h with
  | nil => exact List.forall_mem_nil _
  | @plain isFirst c later chars hc h ih =>
    have hpart : isIdentifierPart c = true := by
      cases isFirst with
      | true => exact Json5.isIdentifierPart_of_isIdentifierStart hc
      | false => exact hc
    exact List.forall_mem_cons.2 ⟨isPlain_of_isIdentifierPart hpart, ih⟩
  | escape hunit hscalar hc h ih =>
    exact List.forall_mem_cons.2 ⟨by decide, List.forall_mem_cons.2 ⟨by decide,
      List.forall_mem_append.2 ⟨isPlain_of_hexValue? hunit.value, ih⟩⟩⟩

/-- A key is skipped. -/
theorem skipped_keyText {text : List Char} {key : Option String} (h : KeyText text key) :
    Skipped text := by
  cases h with
  | identifier h => exact skipped_plain (isPlain_of_identifierText h)
  | quoted hquote h => exact skipped_stringText hquote h

/-- Digits are plain. -/
theorem isPlain_of_digits {digits : List Char} (h : ∀ c ∈ digits, c.isDigit = true) :
    ∀ c ∈ digits, IsPlain c :=
  fun c hc => (plain_of_isDigit (h c hc)).1.1

/-- A fraction is plain. -/
theorem isPlain_of_fraction {text : List Char} {places : Option (List Char)}
    (h : Json5.Fraction text places) : ∀ c ∈ text, IsPlain c := by
  cases h with
  | missing => exact List.forall_mem_nil _
  | places h => exact List.forall_mem_cons.2 ⟨by decide, isPlain_of_digits h⟩

/-- An exponent is plain. -/
theorem isPlain_of_power {text : List Char} {size : Option Int} (h : Json5.Power text size) :
    ∀ c ∈ text, IsPlain c := by
  have hmarked {mark : Char} (hmark : mark = 'e' ∨ mark = 'E') : IsPlain mark := by
    rcases hmark with rfl | rfl <;> decide
  cases h with
  | missing => exact List.forall_mem_nil _
  | positive hmark hsign h =>
    refine List.forall_mem_cons.2 ⟨hmarked hmark,
      List.forall_mem_append.2 ⟨?_, isPlain_of_digits h.2⟩⟩
    rcases hsign with rfl | rfl <;> simp [IsPlain]
  | negative hmark h =>
    exact List.forall_mem_cons.2 ⟨hmarked hmark,
      List.forall_mem_cons.2 ⟨by decide, isPlain_of_digits h.2⟩⟩

/-- A number is plain behind its sign. -/
theorem isPlain_of_magnitude {negative : Bool} {text : List Char} {value : Value}
    (h : Json5.Magnitude negative text value) : ∀ c ∈ text, IsPlain c := by
  cases h with
  | infinity => simp [IsPlain]
  | nan => simp [IsPlain]
  | hex hmark hne hvalue =>
    refine List.forall_mem_cons.2 ⟨by decide,
      List.forall_mem_cons.2 ⟨?_, isPlain_of_hexValue? hvalue⟩⟩
    rcases hmark with rfl | rfl <;> decide
  | decimal hfraction hpower hdigits =>
    refine List.forall_mem_append.2 ⟨isPlain_of_digits ?_, List.forall_mem_append.2
      ⟨isPlain_of_fraction hfraction, isPlain_of_power hpower⟩⟩
    rcases hdigits with hwhole | ⟨rfl, -⟩
    · exact hwhole.isDigit
    · exact List.forall_mem_nil _

/-- A number is plain. -/
theorem isPlain_of_numberText {text : List Char} {value : Value} (h : NumberText text value) :
    ∀ c ∈ text, IsPlain c := by
  cases h with
  | unsigned h => exact isPlain_of_magnitude h
  | plus h => exact List.forall_mem_cons.2 ⟨by decide, isPlain_of_magnitude h⟩
  | minus h => exact List.forall_mem_cons.2 ⟨by decide, isPlain_of_magnitude h⟩

/-! ## Values -/

/-- A JSON5 text is skipped if each line comment in it ends at a newline. -/
theorem skipped_of_denotes {part : Json5.Part} {text : List Char} {meaning : Option part.Meaning}
    (h : Denotes NewlineAhead part text meaning) : Skipped text := by
  have hmark : Skipped [','] ∧ Skipped [':'] :=
    ⟨skipped_plain (by simp [IsPlain]), skipped_plain (by simp [IsPlain])⟩
  induction h with
  | null => exact skipped_plain (by simp [IsPlain])
  | true => exact skipped_plain (by simp [IsPlain])
  | false => exact skipped_plain (by simp [IsPlain])
  | number h => exact skipped_plain (isPlain_of_numberText h)
  | string hquote h => exact skipped_stringText hquote h
  | container h ih => exact skipped_container _ ih
  | member hkey hbefore hafter h ih =>
    exact (skipped_keyText hkey).append ((skipped_gap hbefore).append
      (hmark.2.append ((skipped_gap hafter).append ih)))
  | done hgap => exact skipped_gap hgap
  | last hbefore h hafter ih => exact (skipped_gap hbefore).append (ih.append (skipped_gap hafter))
  | next hbefore h hafter hrest ih ihrest =>
    exact (skipped_gap hbefore).append (ih.append ((skipped_gap hafter).append
      (hmark.1.append ihrest)))

/-! ## Literals -/

/-- An object literal is found whole in front of any text, and the script that exports it has the
options of its value. -/
structure TakenWhole (literal : List Char) (members : Option (List (String × Value))) : Prop where
  found : ∀ rest, objectLiteral (literal ++ rest) = .ok literal
  exported : ∀ rest,
    evaluate (String.ofList (Spelling.moduleExports.text literal rest)) = literalOptions literal
  decoded : ∀ values, members = some values → literalOptions literal =
    (FormatOptions.decode (wholeNumbers (.ofMembers values))).mapError .mismatch

/-- The options of a script are those of the literal that is found where it exports one in place. -/
theorem evaluate_moduleExports {literal : List Char} (hbrace : literal.head? = some '\x7b')
    (rest : List Char) :
    evaluate (String.ofList (Spelling.moduleExports.text literal rest)) =
      (objectLiteral (literal ++ rest)).bind literalOptions := by
  obtain ⟨later, rfl⟩ := List.head?_eq_some_iff.1 hbrace
  have hsolid : Solid ('\x7b' :: later ++ rest) := by
    rintro c ⟨⟩
    decide
  have hexported : exported (Spelling.moduleExports.text ('\x7b' :: later) rest) =
      .ok ('\x7b' :: later ++ rest) := exported_moduleExports hsolid rfl
  rw [evaluate_ofList, hexported]
  rfl

/-- The options of an object are decoded from its members. -/
theorem literalOptions_eq {literal : List Char} {members : List (String × Value)}
    (h : Json5.read? (String.ofList literal) = some (.ofMembers members)) :
    literalOptions literal =
      (FormatOptions.decode (wholeNumbers (.ofMembers members))).mapError .mismatch := by
  rw [literalOptions, h]
  simp only [Value.ofMembers]
  cases FormatOptions.decode (wholeNumbers (.object (Entries.ofPairs members))) <;> rfl

/-- A JSON5 object is taken whole if each line comment in it ends at a newline, be it behind a
carriage return or not. Where a string in it holds half of a surrogate pair, its members have no
value, and the reader decides about the literal. -/
theorem object_is_taken_whole {literal : List Char} {members : Option (List (String × Value))}
    (h : IsObject NewlineEnds literal members) : TakenWhole literal members := by
  cases h with
  | @mk contents members h =>
    have hskipped : Skipped contents := skipped_of_denotes (h.mono fun _ hends => hends.2)
    have hfound := objectLiteral_of_skipped hskipped
    refine ⟨hfound, fun rest => ?_, ?_⟩
    · rw [evaluate_moduleExports rfl rest, hfound rest]
      rfl
    · rintro values rfl
      have hvalue : Denotes LineEnds (.element .square)
          (Bracket.curly.opening :: (contents ++ [Bracket.curly.closing]))
          (some (Value.ofMembers values)) := .container (h.mono fun _ hends => hends.1)
      exact literalOptions_eq hvalue.read?_eq

/-- An object with comments, a carriage return in front of each newline, an escape and a comma behind
its last member. Its comments and strings hold quotes and brackets. -/
def commented : List Char :=
  "\x7b//\x27\x7d\r\nsemi:false,/*]*/plugins:[\x27\x7d\\\r\n\\x5d\x27],\x7d".toList

/-- The members of that object. -/
def commentedMembers : List (String × Value) :=
  [("semi", .bool false), ("plugins", .array [.string "\x7d]"])]

/-- One option is a member. -/
theorem denotes_semi (ends : List Char → Prop) :
    Denotes ends (.element .curly) "semi:false".toList (some ("semi", Value.bool false)) := by
  have hname : IdentifierText true ['s', 'e', 'm', 'i'] ['s', 'e', 'm', 'i'] :=
    Json5.identifierText_plain (Json5.isIdentifierStart_of_ascii (by decide))
      fun c hc => Json5.isIdentifierPart_of_ascii (by revert c; simp)
  have hmember : Denotes ends (.element .curly)
      (['s', 'e', 'm', 'i'] ++ ([] ++ ':' :: ([] ++ "false".toList)))
      (some ("semi", Value.bool false)) := .member (.identifier hname) .nil .nil .false
  exact hmember

/-- The text is an object with these members. -/
theorem isObject_commented : IsObject NewlineEnds commented (some commentedMembers) := by
  have hline : GapText NewlineEnds ('/' :: '/' :: (['\'', '\x7d'] ++ ['\r', '\n'])) :=
    .line (by simp [Json5.isLineEnd]) ⟨⟨'\r', rfl, by decide⟩, ['\r'], [],
      List.forall_mem_singleton.2 (by decide), rfl⟩
      (.blank (by decide) (.blank (by decide) .nil))
  have hblock : GapText NewlineEnds ('/' :: '*' :: ([']'] ++ '*' :: '/' :: [])) :=
    .block (by decide) .nil
  have hname : IdentifierText true ('p' :: "lugins".toList) ('p' :: "lugins".toList) :=
    Json5.identifierText_plain (Json5.isIdentifierStart_of_ascii (by decide))
      fun c hc => Json5.isIdentifierPart_of_ascii (by revert c; simp)
  have hstring : StringText '\'' ('\x7d' :: '\\' :: (['\r', '\n'] ++
      '\\' :: ('x' :: ['5', 'd'] ++ ['\'']))) (some ['\x7d', ']']) :=
    .plain (by decide) (by decide) (by decide) (by decide)
      (.escape .returnNewline (.escape (.byte ⟨rfl, by decide⟩) .close))
  have hitems : Denotes NewlineEnds (.contents .square) _ (some [Value.string "\x7d]"]) :=
    .last .nil (.string (.inr rfl) hstring) .nil
  have hplugins : Denotes NewlineEnds (.element .curly) _
      (some ("plugins", Value.array [.string "\x7d]"])) :=
    .member (.identifier hname) .nil .nil (.container hitems)
  have hmembers : Denotes NewlineEnds (.contents .curly) _ (some commentedMembers) :=
    .next hline (denotes_semi _) .nil (.next hblock hplugins .nil (.done .nil))
  exact .mk hmembers

/-- That object is taken whole. -/
theorem object_is_taken_whole_commented :
    IsObject NewlineEnds commented (some commentedMembers) ∧
      TakenWhole commented (some commentedMembers) :=
  ⟨isObject_commented, object_is_taken_whole isObject_commented⟩

/-- A line comment without a newline behind it hides all that follows. -/
theorem objectLiteral_of_endless_comment {comment : List Char} (h : '\n' ∉ comment) :
    objectLiteral ('\x7b' :: '/' :: '/' :: comment) = .error .unterminated := by
  have hnone (depth : Nat) : balanced .lineComment depth comment = none := by
    have hend : balanced .lineComment depth (comment ++ []) =
        (balanced .lineComment depth []).map (comment ++ ·) := balanced_lineComment h
    rwa [List.append_nil, balanced, Option.map_none] at hend
  have hbalanced : balanced .code 0 ('\x7b' :: '/' :: '/' :: comment) = none := by
    simp [balanced, hnone]
  rw [objectLiteral]
  simp only [hbalanced]

/-- A line of JSON5 may end at a carriage return alone, but the search for the end of the literal
goes on to a newline, and finds none. -/
theorem lone_return_hides_literal :
    ¬ ∀ (literal : List Char) (members : Option (List (String × Value))),
      IsObject LineEnds literal members → TakenWhole literal members := by
  intro h
  have hgap : GapText LineEnds ('/' :: '/' :: (['c'] ++ ['\r'])) :=
    .line (by simp [Json5.isLineEnd]) ⟨'\r', rfl, by decide⟩ (.blank (by decide) .nil)
  have hmembers : Denotes LineEnds (.contents .curly) _ (some [("semi", Value.bool false)]) :=
    .last hgap (denotes_semi _) .nil
  have hfound : objectLiteral ('\x7b' :: '/' :: '/' :: 'c' :: '\r' :: "semi:false\x7d".toList) =
      .ok _ := (h _ _ (.mk hmembers)).found []
  have hhidden : '\n' ∉ 'c' :: '\r' :: "semi:false\x7d".toList := by decide
  rw [objectLiteral_of_endless_comment hhidden] at hfound
  cases hfound

end EditorFormat.Config.Script
