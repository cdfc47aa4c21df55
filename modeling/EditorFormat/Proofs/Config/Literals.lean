import EditorFormat.Config.Script
import EditorFormat.Proofs.Json.Grammar

/-!
# Object literals that are JSON

A script is searched for the end of its object literal by counting brackets, and for its export by
looking at the starts of lines. A JSON text misleads neither search (`Inert`): its strings are
skipped as a whole, its brackets are balanced, and none of its lines begins like an export. So the
literal that is found is the JSON object, whatever follows it (`objectLiteral_append`).
-/

namespace EditorFormat.Config.Script

open Json (Blanks Digits NumberText StringText IsJson IsObject Bracket Part)
open Text (isBlank trimFront)

/-! ## Counting brackets -/

/-- Characters that neither open nor close anything. -/
def IsPlain (c : Char) : Prop :=
  c ∉ ['"', '\'', '\x60', '\x7b', '[', '\x7d', ']', '/']

instance (c : Char) : Decidable (IsPlain c) :=
  inferInstanceAs (Decidable (_ ∉ _))

section Scanning

variable {depth : Nat} {c : Char} {rest : List Char}

/-- A plain character changes nothing. -/
theorem balanced_plain (h : IsPlain c) :
    balanced .code depth (c :: rest) = (balanced .code depth rest).map (c :: ·) := by
  simp only [IsPlain, List.mem_cons, List.not_mem_nil, or_false, not_or] at h
  obtain ⟨hdouble, hsingle, hback, hbrace, hsquare, hclose, hend, hslash⟩ := h
  rw [balanced]
  · simp [hdouble, hsingle, hback, hbrace, hsquare, hclose, hend]
  · exact fun _ heq _ => absurd heq hslash
  · exact fun _ heq _ => absurd heq hslash

/-- Plain characters change nothing. -/
theorem balanced_append_plain {text : List Char} (h : ∀ c ∈ text, IsPlain c) :
    balanced .code depth (text ++ rest) = (balanced .code depth rest).map (text ++ ·) := by
  induction text with
  | nil => simp
  | cons c later ih =>
    obtain ⟨hc, hlater⟩ := List.forall_mem_cons.1 h
    rw [List.cons_append, balanced_plain hc, ih hlater, Option.map_map]
    rfl

/-- A bracket is opened. -/
theorem balanced_opening (bracket : Bracket) :
    balanced .code depth (bracket.opening :: rest) =
      (balanced .code (depth + 1) rest).map (bracket.opening :: ·) := by
  cases bracket <;> simp [Bracket.opening, balanced]

/-- A bracket is closed, and others stay open. -/
theorem balanced_closing (bracket : Bracket) (h : 1 < depth) :
    balanced .code depth (bracket.closing :: rest) =
      (balanced .code (depth - 1) rest).map (bracket.closing :: ·) := by
  have hopen : ¬ depth ≤ 1 := by omega
  cases bracket <;> simp [Bracket.closing, balanced, hopen]

/-- The last bracket is closed. -/
theorem balanced_last (bracket : Bracket) (h : depth ≤ 1) :
    balanced .code depth (bracket.closing :: rest) = some [bracket.closing] := by
  cases bracket <;> simp [Bracket.closing, balanced, h]

/-- Most characters of a string change nothing. -/
theorem balanced_quoted {quote : Char} (hquote : c ≠ quote) (hslash : c ≠ '\\') :
    balanced (.quoted quote) depth (c :: rest) =
      (balanced (.quoted quote) depth rest).map (c :: ·) := by
  simp only [balanced, if_neg hquote, if_neg hslash]

/-- A backslash takes away the meaning of the character behind it. -/
theorem balanced_escape (quote : Char) :
    balanced (.quoted quote) depth ('\\' :: c :: rest) =
      (balanced (.quoted quote) depth rest).map ('\\' :: c :: ·) := by
  simp only [balanced, if_true, Option.map_map]
  rfl

end Scanning

/-! ## Strings -/

/-- A character around a string. -/
def IsStringMark (c : Char) : Prop :=
  c = '"' ∨ c = '\'' ∨ c = '\x60'

/-- The rest of a string, up to the mark that closes it. A backslash takes away the meaning of the
character behind it. -/
inductive StringRest (mark : Char) : List Char → Prop where
  | close : StringRest mark [mark]
  | plain {c : Char} {rest : List Char} (hmark : c ≠ mark) (hslash : c ≠ '\\')
      (h : StringRest mark rest) : StringRest mark (c :: rest)
  | escape (c : Char) {rest : List Char} (h : StringRest mark rest) :
      StringRest mark ('\\' :: c :: rest)

section Strings

variable {mark : Char} {text : List Char}

/-- A string begins with its mark. -/
theorem balanced_mark (hmark : IsStringMark mark) (depth : Nat) (text : List Char) :
    balanced .code depth (mark :: text) =
      (balanced (.quoted mark) depth text).map (mark :: ·) := by
  rcases hmark with rfl | rfl | rfl <;> simp [balanced]

/-- The rest of a string is skipped up to the mark that closes it. -/
theorem balanced_stringRest (hmark : IsStringMark mark) (h : StringRest mark text) (depth : Nat)
    (after : List Char) :
    balanced (.quoted mark) depth (text ++ after) =
      (balanced .code depth after).map (text ++ ·) := by
  induction h with
  | close =>
    have hslash : mark ≠ '\\' := by
      rcases hmark with rfl | rfl | rfl <;> decide
    simp [balanced, hslash]
  | plain hother hslash h ih =>
    rw [List.cons_append, balanced_quoted hother hslash, ih, Option.map_map]
    rfl
  | escape c h ih =>
    rw [List.cons_append, List.cons_append, balanced_escape, ih, Option.map_map]
    rfl

/-- A string is skipped as a whole. -/
theorem balanced_string (hmark : IsStringMark mark) (h : StringRest mark text) (depth : Nat)
    (after : List Char) :
    balanced .code depth (mark :: (text ++ after)) =
      (balanced .code depth after).map (mark :: text ++ ·) := by
  rw [balanced_mark hmark, balanced_stringRest hmark h, Option.map_map]
  rfl

/-- Characters with no meaning in a string may stand anywhere in it. -/
theorem StringRest.append {rest : List Char} (h : ∀ c ∈ text, c ≠ mark ∧ c ≠ '\\')
    (hrest : StringRest mark rest) : StringRest mark (text ++ rest) := by
  induction text with
  | nil => exact hrest
  | cons c later ih =>
    obtain ⟨⟨hmark, hslash⟩, hlater⟩ := List.forall_mem_cons.1 h
    exact .plain hmark hslash (ih hlater)

/-- A string of JSON ends where the search takes it to end. -/
theorem stringRest_of_json (h : StringText text) : StringRest '"' text := by
  induction h with
  | close => exact .close
  | plain hquote hslash hcontrol h ih => exact .plain hquote hslash ih
  | escape hc h ih => exact .escape _ ih
  | @unicode first second third fourth later hdigits h ih =>
    have hother : ∀ digit ∈ [first, second, third, fourth], digit ≠ '"' ∧ digit ≠ '\\' := by
      intro digit hdigit
      have hhex := hdigits digit hdigit
      constructor <;> (rintro rfl; exact absurd hhex (by decide))
    exact .escape 'u' (.append hother ih)

end Strings

/-! ## Texts that are skipped -/

/-- Inside of a bracket all of a text is skipped. -/
def Skipped (text : List Char) : Prop :=
  ∀ ⦃depth : Nat⦄ ⦃rest : List Char⦄, 0 < depth →
    balanced .code depth (text ++ rest) = (balanced .code depth rest).map (text ++ ·)

/-- Texts that are skipped follow each other. -/
theorem Skipped.append {first second : List Char} (hfirst : Skipped first)
    (hsecond : Skipped second) : Skipped (first ++ second) := by
  intro depth rest hdepth
  rw [List.append_assoc, hfirst hdepth, hsecond hdepth, Option.map_map]
  simp [Function.comp_def]

/-- Plain characters are skipped. -/
theorem skipped_plain {text : List Char} (h : ∀ c ∈ text, IsPlain c) : Skipped text :=
  fun _ _ _ => balanced_append_plain h

/-- A container is skipped with its brackets if what is in it is. -/
theorem skipped_container (bracket : Bracket) {contents : List Char} (h : Skipped contents) :
    Skipped (bracket.opening :: (contents ++ [bracket.closing])) := by
  intro depth rest hdepth
  rw [List.cons_append, balanced_opening, List.append_assoc, h (Nat.succ_pos depth),
    List.singleton_append, balanced_closing bracket (Nat.succ_lt_succ hdepth)]
  simp [Function.comp_def]

/-- A literal ends where the brace in front of it is closed. -/
theorem objectLiteral_of_skipped {contents : List Char} (h : Skipped contents) (rest : List Char) :
    objectLiteral (Bracket.curly.opening :: (contents ++ [Bracket.curly.closing]) ++ rest) =
      .ok (Bracket.curly.opening :: (contents ++ [Bracket.curly.closing])) := by
  have hbalanced : balanced .code 0
      (Bracket.curly.opening :: (contents ++ [Bracket.curly.closing]) ++ rest) =
        some (Bracket.curly.opening :: (contents ++ [Bracket.curly.closing])) := by
    rw [List.cons_append, balanced_opening, List.append_assoc, h Nat.one_pos,
      List.singleton_append, balanced_last _ (Nat.le_refl 1)]
    rfl
  rw [List.cons_append] at hbalanced ⊢
  simp only [objectLiteral, Bracket.opening, Bracket.closing] at hbalanced ⊢
  simp only [hbalanced]

/-! ## Starts of lines -/

/-- The first character that is no blank begins no export. -/
def NoExportAhead (text : List Char) : Prop :=
  ∃ c rest, trimFront text = c :: rest ∧ c ≠ 'e' ∧ c ≠ 'm'

/-- A character that is no blank is the first one. -/
theorem noExportAhead_cons {c : Char} (hblank : isBlank c = false) (he : c ≠ 'e') (hm : c ≠ 'm')
    (rest : List Char) : NoExportAhead (c :: rest) :=
  ⟨c, rest, List.dropWhile_cons_of_neg (by simp [hblank]), he, hm⟩

/-- A blank of JSON is a blank of a script. -/
theorem isBlank_of_json {c : Char} (h : Json.Reader.isBlank c = true) : isBlank c = true := by
  simp only [Json.Reader.isBlank, Bool.or_eq_true, beq_iff_eq] at h
  rcases h with ((rfl | rfl) | rfl) | rfl <;> decide

/-- Blanks are passed over. -/
theorem NoExportAhead.blanks {blanks text : List Char} (h : NoExportAhead text)
    (hblanks : Blanks blanks) : NoExportAhead (blanks ++ text) := by
  have htrim : trimFront (blanks ++ text) = trimFront text :=
    List.dropWhile_append_of_pos fun c hc => isBlank_of_json (hblanks c hc)
  rwa [NoExportAhead, htrim]

/-- Another first character begins no export. -/
theorem afterExport_eq_none {text : List Char} (h : NoExportAhead text) :
    afterExport text = none := by
  obtain ⟨c, rest, htrim, he, hm⟩ := h
  have hword (first : Char) (later : List Char) (hne : first ≠ c) :
      afterWord (first :: later) (c :: rest) = none := by
    rw [afterWord, List.isPrefixOf_cons_cons, beq_false_of_ne hne]
    rfl
  rw [afterExport, htrim]
  simp [hword _ _ (Ne.symm he), hword _ _ (Ne.symm hm)]

/-- The rest of a line without a newline is passed over. -/
theorem atLineStart_append {find : List Char → Option (List Char)} {text after : List Char}
    (h : '\n' ∉ text) : atLineStart find false (text ++ after) = atLineStart find false after := by
  induction text with
  | nil => rfl
  | cons c later ih =>
    obtain ⟨hc, hlater⟩ := not_or.1 (mt List.mem_cons.2 h)
    have hstart : (c == '\n') = false := beq_false_of_ne (Ne.symm hc)
    rw [List.cons_append, atLineStart, hstart, ih hlater]
    rfl

/-- Where nothing is found at the start of a line, the search goes on behind it. -/
theorem atLineStart_of_none {find : List Char → Option (List Char)} {text : List Char}
    (hne : text ≠ []) (h : find text = none) :
    atLineStart find true text = atLineStart find false text := by
  cases text with
  | nil => exact absurd rfl hne
  | cons c rest =>
    rw [atLineStart, atLineStart, if_pos rfl, h]
    rfl

/-! ## Texts that mislead no search -/

/-- A text that misleads neither search of a script. -/
structure Inert (text : List Char) : Prop where
  skipped : Skipped text
  /-- No export is found in it, if there is none ahead behind it. -/
  silent : ∀ {after : List Char}, NoExportAhead after →
    atLineStart afterExport false (text ++ after) = atLineStart afterExport false after
  /-- There is none ahead in front of it. -/
  ahead : ∀ {after : List Char}, NoExportAhead after → NoExportAhead (text ++ after)

/-- Texts follow each other. -/
theorem Inert.append {first second : List Char} (hfirst : Inert first) (hsecond : Inert second) :
    Inert (first ++ second) where
  skipped := hfirst.skipped.append hsecond.skipped
  silent := fun {after} hafter => by
    rw [List.append_assoc, hfirst.silent (hsecond.ahead hafter), hsecond.silent hafter]
  ahead := fun {after} hafter => by
    rw [List.append_assoc]
    exact hfirst.ahead (hsecond.ahead hafter)

/-- Plain characters on one line mislead no search. -/
theorem inert_plain {c : Char} {rest : List Char}
    (h : ∀ d ∈ c :: rest, IsPlain d ∧ d ≠ '\n') (hblank : isBlank c = false) (he : c ≠ 'e')
    (hm : c ≠ 'm') : Inert (c :: rest) where
  skipped := skipped_plain fun d hd => (h d hd).1
  silent := fun _ => atLineStart_append fun hmem => (h _ hmem).2 rfl
  ahead := fun {after} _ => noExportAhead_cons hblank he hm (rest ++ after)

/-- Blanks mislead no search. -/
theorem inert_blanks {blanks : List Char} (h : Blanks blanks) : Inert blanks where
  skipped := skipped_plain fun c hc => by
    have hblank := h c hc
    simp only [Json.Reader.isBlank, Bool.or_eq_true, beq_iff_eq] at hblank
    rcases hblank with ((rfl | rfl) | rfl) | rfl <;> decide
  silent := fun {after} hafter => by
    induction blanks with
    | nil => rfl
    | cons c later ih =>
      obtain ⟨-, hlater⟩ := List.forall_mem_cons.1 h
      rw [List.cons_append, atLineStart, ← ih hlater]
      cases c == '\n' with
      | false => rfl
      | true =>
        -- the next line goes on with blanks
        have hahead := hafter.blanks hlater
        have hne : later ++ after ≠ [] := by
          rintro heq
          obtain ⟨first, rest, htrim, -⟩ := hahead
          rw [heq] at htrim
          exact absurd htrim nofun
        exact atLineStart_of_none hne (afterExport_eq_none hahead)
  ahead := fun hafter => hafter.blanks h

/-- A string misleads no search. -/
theorem inert_string {text : List Char} (h : StringText text) : Inert ('"' :: text) where
  skipped := fun depth rest _ => balanced_string (.inl rfl) (stringRest_of_json h) depth rest
  silent := fun _ => atLineStart_append fun hmem => h.newline_notMem
    ((List.mem_cons.1 hmem).resolve_left (by decide))
  ahead := fun _ => noExportAhead_cons (by decide) (by decide) (by decide) _

/-- Brackets are no blanks and begin no export. -/
theorem noExportAhead_bracket (bracket : Bracket) (rest : List Char) :
    NoExportAhead (bracket.opening :: rest) ∧ NoExportAhead (bracket.closing :: rest) := by
  constructor <;> refine noExportAhead_cons ?_ ?_ ?_ rest <;> cases bracket <;> decide

/-- A container misleads no search if what is in it does not. -/
theorem inert_container (bracket : Bracket) {contents : List Char} (h : Inert contents) :
    Inert (bracket.opening :: (contents ++ [bracket.closing])) where
  skipped := skipped_container bracket h.skipped
  silent := fun {after} _ => by
    have hopening : '\n' ∉ [bracket.opening] := by cases bracket <;> decide
    have hclosing : '\n' ∉ [bracket.closing] := by cases bracket <;> decide
    have htext : bracket.opening :: (contents ++ [bracket.closing]) ++ after =
        [bracket.opening] ++ (contents ++ (bracket.closing :: after)) := by simp
    rw [htext, atLineStart_append hopening, h.silent (noExportAhead_bracket bracket after).2,
      ← List.singleton_append, atLineStart_append hclosing]
  ahead := fun _ => (noExportAhead_bracket bracket _).1

/-! ## JSON texts -/

/-- A character of a number is plain. It is no blank unless it is no digit. -/
theorem plain_of_isDigit {c : Char} (h : c.isDigit = true) :
    (IsPlain c ∧ c ≠ '\n') ∧ isBlank c = false ∧ c ≠ 'e' ∧ c ≠ 'm' :=
  Json.Reader.of_isDigit h (by decide)

/-- A JSON text misleads no search. -/
theorem inert_of_isJson {part : Part} {text : List Char} (h : IsJson part text) : Inert text := by
  have hmark : Inert [','] ∧ Inert [':'] := by
    constructor <;> exact inert_plain (by simp [IsPlain]) (by decide) (by decide) (by decide)
  induction h with
  | word h =>
    simp only [List.mem_cons, List.not_mem_nil, or_false] at h
    rcases h with rfl | rfl | rfl
    · show Inert ['n', 'u', 'l', 'l']
      exact inert_plain (by simp [IsPlain]) (by decide) (by decide) (by decide)
    · show Inert ['t', 'r', 'u', 'e']
      exact inert_plain (by simp [IsPlain]) (by decide) (by decide) (by decide)
    · show Inert ['f', 'a', 'l', 's', 'e']
      exact inert_plain (by simp [IsPlain]) (by decide) (by decide) (by decide)
  | number h =>
    have hplain : ∀ c ∈ _, IsPlain c ∧ c ≠ '\n' := fun c hc => by
      rcases h.mem hc with hdigit | hmem
      · exact (plain_of_isDigit hdigit).1
      · simp only [List.mem_cons, List.not_mem_nil, or_false] at hmem
        rcases hmem with rfl | rfl | rfl | rfl | rfl <;> decide
    obtain ⟨c, rest, rfl, hc⟩ := h.head
    rcases hc with rfl | hdigit
    · exact inert_plain hplain (by decide) (by decide) (by decide)
    · obtain ⟨-, hblank, he, hm⟩ := plain_of_isDigit hdigit
      exact inert_plain hplain hblank he hm
  | string h => exact inert_string h
  | empty bracket hblanks => exact inert_container bracket (inert_blanks hblanks)
  | @container bracket contents h ih => exact inert_container bracket ih
  | member hkey hbefore hafter hvalue ih =>
    exact (inert_string hkey).append ((inert_blanks hbefore).append
      (hmark.2.append ((inert_blanks hafter).append ih)))
  | last hbefore helement hafter ih =>
    exact (inert_blanks hbefore).append (ih.append (inert_blanks hafter))
  | next hbefore helement hafter hrest ih ihrest =>
    exact (inert_blanks hbefore).append (ih.append ((inert_blanks hafter).append
      (hmark.1.append ihrest)))

/-- An object has braces around its contents. -/
theorem contents_of_isObject {literal : List Char} (h : IsObject literal) :
    ∃ contents, Inert contents ∧
      literal = Bracket.curly.opening :: (contents ++ [Bracket.curly.closing]) := by
  obtain ⟨hvalue, hbrace⟩ := h
  cases hvalue with
  | word h =>
    simp only [List.mem_cons, List.not_mem_nil, or_false] at h
    rcases h with rfl | rfl | rfl <;> exact absurd hbrace (by decide)
  | number h =>
    obtain ⟨c, rest, rfl, hc⟩ := h.head
    obtain rfl := Option.some.inj hbrace
    exact absurd hc (by decide)
  | string h => exact absurd hbrace nofun
  | @empty bracket blanks hblanks =>
    cases bracket with
    | square => exact absurd hbrace nofun
    | curly => exact ⟨blanks, inert_blanks hblanks, rfl⟩
  | @container bracket contents h =>
    cases bracket with
    | square => exact absurd hbrace nofun
    | curly => exact ⟨contents, inert_of_isJson h, rfl⟩

/-- The literal at the front of a text is the JSON object there, whatever follows it. -/
theorem objectLiteral_append {literal : List Char} (h : IsObject literal) (rest : List Char) :
    objectLiteral (literal ++ rest) = .ok literal := by
  obtain ⟨contents, hinert, rfl⟩ := contents_of_isObject h
  exact objectLiteral_of_skipped hinert.skipped rest

end EditorFormat.Config.Script
