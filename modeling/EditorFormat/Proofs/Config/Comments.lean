import EditorFormat.Proofs.Config.Continuations

/-!
# Comments in front of a script

The searches for an export and for a binding look at the starts of lines. They do not know comments,
but what they find on a line of a comment ends in the comment (`StopsAtStar`). So a block comment
changes nothing in front of a script if none of its lines begins an export, or a binding of the name
that the script exports (`evaluate_ignores_comment`). An export that was left in a comment is taken
for the export of the script (`commented_export_is_read`).
-/

namespace EditorFormat.Config.Script

open Text (isBlank trimFront)

/-! ## Beginnings of lines -/

/-- A text of blanks. -/
def AllBlank (text : List Char) : Prop :=
  ∀ c ∈ text, isBlank c = true

/-- One or more blanks. -/
def IsGap (text : List Char) : Prop :=
  text ≠ [] ∧ AllBlank text

/-- A text that begins an export, perhaps behind blanks. -/
inductive BeginsExport : List Char → Prop where
  | default {indent first second rest : List Char} (hindent : AllBlank indent)
      (hfirst : IsGap first) (hsecond : IsGap second) : BeginsExport
        (indent ++ ("export".toList ++ (first ++ ("default".toList ++ (second ++ rest)))))
  | exports {indent gap rest : List Char} (hindent : AllBlank indent) (hgap : AllBlank gap) :
      BeginsExport (indent ++ ("module.exports".toList ++ (gap ++ '=' :: rest)))

/-- A text that begins a binding of a name, perhaps behind blanks. -/
inductive BeginsBinding (name : Name) : List Char → Prop where
  | mk (keyword : Keyword) {indent gap second rest : List Char} (hindent : AllBlank indent)
      (hgap : IsGap gap) (hsecond : AllBlank second) : BeginsBinding name
        (indent ++ (keyword.text ++ (gap ++ (name.chars ++ (second ++ '=' :: rest)))))

/-- A line of a comment, but for the first one, begins with something. -/
def Hides (begins : List Char → Prop) (comment : List Char) : Prop :=
  ∃ before line, comment = before ++ '\n' :: line ∧ begins line

/-- A script exports a name, and not a value in place. -/
def ExportsName (script : List Char) (name : Name) : Prop :=
  ∃ rest, atLineStart afterExport true script = some (name.chars ++ rest) ∧
    splitName (name.chars ++ rest) = some (name.chars, rest)

section Beginnings

variable {text rest word blanks : List Char}

/-- Blanks in front of a text are trimmed. -/
theorem trimFront_append (h : AllBlank blanks) (rest : List Char) :
    trimFront (blanks ++ rest) = trimFront rest :=
  List.dropWhile_append_of_pos h

/-- A text begins with the blanks that are trimmed. -/
theorem exists_trimFront (text : List Char) :
    ∃ blanks, AllBlank blanks ∧ text = blanks ++ trimFront text :=
  ⟨text.takeWhile isBlank, List.all_eq_true.1 List.all_takeWhile,
    List.takeWhile_append_dropWhile.symm⟩

/-- A word is found where the text begins with it. -/
theorem afterWord_eq_some_iff : afterWord word text = some rest ↔ text = word ++ rest := by
  constructor
  · intro h
    rw [afterWord] at h
    by_cases hprefix : word.isPrefixOf text = true
    · obtain ⟨behind, rfl⟩ := List.isPrefixOf_iff_prefix.1 hprefix
      rw [if_pos hprefix, List.drop_left] at h
      rw [Option.some.inj h]
    · rw [if_neg hprefix] at h
      cases h
  · rintro rfl
    exact afterWord_append word rest

/-- A gap is passed with all blanks. -/
theorem afterBlanks_append {gap : List Char} (h : IsGap gap) (rest : List Char) :
    afterBlanks (gap ++ rest) = some (trimFront rest) := by
  obtain ⟨hne, hblank⟩ := h
  obtain ⟨c, others, rfl⟩ := List.exists_cons_of_ne_nil hne
  rw [← trimFront_append hblank, List.cons_append, afterBlanks, if_pos (hblank c List.mem_cons_self)]

/-- What is passed as blanks is a gap. -/
theorem exists_gap (h : afterBlanks text = some rest) : ∃ gap, IsGap gap ∧ text = gap ++ rest := by
  cases text with
  | nil => cases h
  | cons c others =>
    rw [afterBlanks] at h
    by_cases hc : isBlank c = true
    · obtain ⟨blanks, hblanks, hothers⟩ := exists_trimFront others
      have htrim : trimFront (c :: others) = trimFront others := List.dropWhile_cons_of_pos hc
      refine ⟨c :: blanks, ⟨List.cons_ne_nil _ _, List.forall_mem_cons.2 ⟨hc, hblanks⟩⟩, ?_⟩
      rw [if_pos hc] at h
      rw [← Option.some.inj h, htrim, List.cons_append, ← hothers]
    · rw [if_neg hc] at h
      cases h

end Beginnings

/-! ## Searches that stop at a star -/

/-- What is found in front of a star does not go on behind it. -/
def StopsAtStar (find : List Char → Option (List Char)) : Prop :=
  ∀ text rest, find (text ++ '*' :: rest) = (find text).map (· ++ '*' :: rest)

section Stops

variable {first second find : List Char → Option (List Char)}

/-- One search after the other stops. -/
theorem StopsAtStar.bind (hfirst : StopsAtStar first) (hsecond : StopsAtStar second) :
    StopsAtStar fun text => (first text).bind second := by
  intro text rest
  show (first (text ++ '*' :: rest)).bind second = ((first text).bind second).map _
  rw [hfirst]
  cases first text with
  | none => rfl
  | some found => exact hsecond found rest

/-- The first of two searches that finds something stops. -/
theorem StopsAtStar.orElse (hfirst : StopsAtStar first) (hsecond : StopsAtStar second) :
    StopsAtStar fun text => first text <|> second text := by
  intro text rest
  show (first (text ++ '*' :: rest) <|> second (text ++ '*' :: rest)) =
    (first text <|> second text).map _
  rw [hfirst, hsecond]
  cases first text <;> rfl

/-- Characters of a class without the star are taken from the front up to a star. -/
theorem while_star {keep : Char → Bool} (h : keep '*' = false) (text rest : List Char) :
    (text ++ '*' :: rest).takeWhile keep = text.takeWhile keep ∧
      (text ++ '*' :: rest).dropWhile keep = text.dropWhile keep ++ '*' :: rest := by
  induction text with
  | nil => simp [h]
  | cons c later ih =>
    rw [List.cons_append, List.takeWhile_cons, List.takeWhile_cons, List.dropWhile_cons,
      List.dropWhile_cons, ih.1, ih.2]
    split <;> exact ⟨rfl, rfl⟩

/-- Trimming stops at a star. -/
theorem trimFront_star (text rest : List Char) :
    trimFront (text ++ '*' :: rest) = trimFront text ++ '*' :: rest :=
  (while_star (by decide) text rest).2

/-- A search behind blanks stops. -/
theorem StopsAtStar.trim (h : StopsAtStar find) : StopsAtStar fun text => find (trimFront text) := by
  intro text rest
  show find (trimFront (text ++ '*' :: rest)) = (find (trimFront text)).map _
  rw [trimFront_star, h]

/-- A word is found character by character. -/
theorem afterWord_cons (c d : Char) (word text : List Char) :
    afterWord (c :: word) (d :: text) = if c = d then afterWord word text else none := by
  rw [afterWord, List.isPrefixOf_cons_cons, List.length_cons, List.drop_succ_cons]
  by_cases h : c = d
  · rw [if_pos h, h, beq_self_eq_true, Bool.true_and]
    rfl
  · rw [if_neg h, beq_false_of_ne h, Bool.false_and]
    rfl

/-- A word that holds no star stops. -/
theorem stops_afterWord (word : List Char) (h : '*' ∉ word) : StopsAtStar (afterWord word) := by
  induction word with
  | nil =>
    intro text rest
    rfl
  | cons c later ih =>
    obtain ⟨hc, hlater⟩ := not_or.1 (mt List.mem_cons.2 h)
    intro text rest
    cases text with
    | nil =>
      rw [List.nil_append, afterWord_cons, if_neg (Ne.symm hc)]
      rfl
    | cons d others =>
      rw [List.cons_append, afterWord_cons, afterWord_cons]
      split
      · exact ih hlater others rest
      · rfl

/-- Blanks stop. -/
theorem stops_afterBlanks : StopsAtStar afterBlanks := by
  intro text rest
  cases text with
  | nil => rfl
  | cons c later =>
    rw [List.cons_append, afterBlanks, afterBlanks]
    split
    · rw [← List.cons_append, trimFront_star]
      rfl
    · rfl

/-- An equals sign stops. -/
theorem stops_afterEquals : StopsAtStar afterEquals := by
  have hequals : StopsAtStar (afterWord ['=']) := stops_afterWord _ (by decide)
  have htrim : StopsAtStar fun text => some (trimFront text) := by
    intro text rest
    show some _ = some _
    rw [trimFront_star]
  exact (hequals.bind htrim).trim

/-- A name stops. -/
theorem splitName_star (text rest : List Char) :
    splitName (text ++ '*' :: rest) =
      (splitName text).map fun found => (found.1, found.2 ++ '*' :: rest) := by
  have hstar : isNameChar '*' = false := isNameChar_of_ascii (by decide)
  cases text with
  | nil => rfl
  | cons c later =>
    obtain ⟨htake, hdrop⟩ := while_star hstar later rest
    rw [List.cons_append, splitName, splitName, htake, hdrop]
    split <;> rfl

/-- A declaration stops. -/
theorem stops_afterConstant : StopsAtStar afterConstant := by
  have hname : StopsAtStar fun text => (splitName text).bind fun found => afterEquals found.2 := by
    intro text rest
    show (splitName (text ++ '*' :: rest)).bind _ = ((splitName text).bind _).map _
    rw [splitName_star]
    cases splitName text with
    | none => rfl
    | some found => exact stops_afterEquals found.2 rest
  exact (stops_afterWord _ (by decide)).bind (stops_afterBlanks.bind hname)

/-- An export stops. -/
theorem stops_afterExport : StopsAtStar afterExport := by
  have hvalue : StopsAtStar fun text => some ((afterConstant text).getD text) := by
    intro text rest
    show some _ = some _
    rw [stops_afterConstant]
    cases afterConstant text <;> rfl
  have hdefault := ((stops_afterWord "export".toList (by decide)).bind
    (stops_afterBlanks.bind ((stops_afterWord "default".toList (by decide)).bind
      (stops_afterBlanks.bind hvalue))))
  have hexports := (stops_afterWord "module.exports".toList (by decide)).bind
    stops_afterEquals
  exact (hdefault.orElse hexports).trim

/-- A binding stops. -/
theorem stops_afterBinding {name : List Char} (h : '*' ∉ name) :
    StopsAtStar (afterBinding name) := by
  have hkeyword := (stops_afterWord "const".toList (by decide)).orElse
    ((stops_afterWord "let".toList (by decide)).orElse
      (stops_afterWord "var".toList (by decide)))
  have hname := (stops_afterWord name h).bind stops_afterEquals
  exact (hkeyword.bind (stops_afterBlanks.bind hname)).trim

end Stops

/-! ## What begins a line -/

/-- One search after the other finds something. -/
theorem isSome_bind_iff {found : Option (List Char)} {next : List Char → Option (List Char)} :
    (found.bind next).isSome ↔ ∃ rest, found = some rest ∧ (next rest).isSome := by
  cases found <;> simp

/-- One of two searches finds something. -/
theorem isSome_orElse_iff {first second : Option (List Char)} :
    (first <|> second).isSome ↔ first.isSome ∨ second.isSome := by
  cases first <;> simp

/-- An equals sign is found behind blanks. -/
theorem isSome_afterEquals_iff {text : List Char} :
    (afterEquals text).isSome ↔ ∃ gap rest, AllBlank gap ∧ text = gap ++ '=' :: rest := by
  constructor
  · intro h
    obtain ⟨rest, hrest, -⟩ := isSome_bind_iff.1 h
    obtain ⟨gap, hgap, htext⟩ := exists_trimFront text
    rw [afterWord_eq_some_iff.1 hrest] at htext
    exact ⟨gap, rest, hgap, htext⟩
  · rintro ⟨gap, rest, hgap, rfl⟩
    rw [afterEquals, trimFront_append hgap]
    rfl

/-- An export is found where a text begins one. -/
theorem isSome_afterExport_iff {text : List Char} :
    (afterExport text).isSome ↔ BeginsExport text := by
  rw [afterExport, isSome_orElse_iff]
  simp only [Option.bind_eq_bind, isSome_bind_iff]
  constructor
  · obtain ⟨indent, hindent, htext⟩ := exists_trimFront text
    rintro (⟨first, hexport, second, hfirst, third, hdefault, rest, hthird, -⟩ |
      ⟨rest, hexports, hequals⟩)
    · obtain ⟨gap, hgap, rfl⟩ := exists_gap hfirst
      obtain ⟨behind, hbehind, rfl⟩ := exists_gap hthird
      rw [htext, afterWord_eq_some_iff.1 hexport, afterWord_eq_some_iff.1 hdefault]
      exact .default hindent hgap hbehind
    · obtain ⟨gap, behind, hgap, rfl⟩ := isSome_afterEquals_iff.1 hequals
      rw [htext, afterWord_eq_some_iff.1 hexports]
      exact .exports hindent hgap
  · intro h
    cases h with
    | @default indent first second rest hindent hfirst hsecond =>
      rw [trimFront_append hindent]
      exact .inl ⟨_, afterWord_append _ _, _, afterBlanks_append hfirst _, _, afterWord_append _ _,
        _, afterBlanks_append hsecond _, rfl⟩
    | @exports indent gap rest hindent hgap =>
      rw [trimFront_append hindent]
      exact .inr ⟨_, afterWord_append _ _, isSome_afterEquals_iff.2 ⟨gap, rest, hgap, rfl⟩⟩

/-- A keyword is found where a text begins with one. -/
theorem afterKeyword_eq_some_iff {text rest : List Char} :
    (afterWord "const".toList text <|> afterWord "let".toList text <|>
      afterWord "var".toList text) = some rest ↔ ∃ keyword : Keyword, text = keyword.text ++ rest := by
  constructor
  · intro h
    cases hconst : afterWord "const".toList text with
    | some found =>
      rw [hconst] at h
      exact ⟨.const, afterWord_eq_some_iff.1 (hconst.trans h)⟩
    | none =>
      cases hlet : afterWord "let".toList text with
      | some found =>
        rw [hconst, hlet] at h
        exact ⟨.let, afterWord_eq_some_iff.1 (hlet.trans h)⟩
      | none =>
        rw [hconst, hlet] at h
        exact ⟨.var, afterWord_eq_some_iff.1 h⟩
  · rintro ⟨keyword, rfl⟩
    cases keyword <;> rfl

/-- A binding is found where a text begins one. -/
theorem isSome_afterBinding_iff {name : Name} {text : List Char} :
    (afterBinding name.chars text).isSome ↔ BeginsBinding name text := by
  rw [afterBinding]
  simp only [Option.bind_eq_bind, isSome_bind_iff]
  constructor
  · obtain ⟨indent, hindent, htext⟩ := exists_trimFront text
    rintro ⟨first, hkeyword, second, hfirst, rest, hname, hequals⟩
    obtain ⟨keyword, hline⟩ := afterKeyword_eq_some_iff.1 hkeyword
    obtain ⟨gap, hgap, rfl⟩ := exists_gap hfirst
    obtain ⟨blanks, behind, hblanks, rfl⟩ := isSome_afterEquals_iff.1 hequals
    rw [htext, hline, afterWord_eq_some_iff.1 hname]
    exact .mk keyword hindent hgap hblanks
  · intro h
    cases h with
    | @mk keyword indent gap second rest hindent hgap hsecond =>
      have hline (behind : List Char) : trimFront (keyword.text ++ behind) =
          keyword.text ++ behind := by cases keyword <;> rfl
      have hname : afterWord name.chars (trimFront (name.chars ++ (second ++ '=' :: rest))) =
          some (second ++ '=' :: rest) := by
        rw [trimFront_of_solid (name.solid _), afterWord_append]
      rw [trimFront_append hindent, hline]
      exact ⟨_, afterKeyword_eq_some_iff.2 ⟨keyword, rfl⟩, _, afterBlanks_append hgap _, _, hname,
        isSome_afterEquals_iff.2 ⟨second, rest, hsecond, rfl⟩⟩

/-- What is split off is a name. -/
theorem exists_name {text chars rest : List Char} (h : splitName text = some (chars, rest)) :
    ∃ name : Name, chars = name.chars ∧ text = name.chars ++ rest := by
  cases text with
  | nil => cases h
  | cons c later =>
    rw [splitName] at h
    by_cases hstart : isNameStart c = true
    · rw [if_pos hstart] at h
      obtain ⟨rfl, rfl⟩ := Prod.mk.inj (Option.some.inj h)
      refine ⟨⟨c, later.takeWhile isNameChar, hstart, List.all_eq_true.1 List.all_takeWhile⟩,
        rfl, ?_⟩
      rw [Name.chars, List.cons_append, List.takeWhile_append_dropWhile]
    · rw [if_neg hstart] at h
      cases h

/-- A name holds no star. -/
theorem Name.star_notMem (name : Name) : '*' ∉ name.chars := by
  intro hmem
  have hnone : isNameChar '*' = false := isNameChar_of_ascii (by decide)
  rw [isNameChar_of_mem hmem] at hnone
  exact Bool.noConfusion hnone

/-! ## Recognizers -/

/-- A search recognizes a beginning: it finds something where a text begins so, it stops at stars, and
it finds nothing where a slash is first. -/
structure Recognizes (find : List Char → Option (List Char)) (begins : List Char → Prop) :
    Prop where
  isSome_iff : ∀ text, (find text).isSome ↔ begins text
  stops : StopsAtStar find
  slash : ∀ rest, find ('/' :: rest) = none

/-- Exports are recognized. -/
theorem recognizes_export : Recognizes afterExport BeginsExport :=
  ⟨fun _ => isSome_afterExport_iff, stops_afterExport, fun _ => rfl⟩

/-- Bindings of a name are recognized. -/
theorem recognizes_binding (name : Name) :
    Recognizes (afterBinding name.chars) (BeginsBinding name) :=
  ⟨fun _ => isSome_afterBinding_iff, stops_afterBinding name.star_notMem, fun _ => rfl⟩

/-! ## Searches over a comment -/

/-- A comment in front of a script. -/
def behindComment (comment script : List Char) : List Char :=
  '/' :: '*' :: (comment ++ '*' :: '/' :: '\n' :: script)

section Comment

variable {find : List Char → Option (List Char)} {begins : List Char → Prop} {comment : List Char}

/-- A line begins behind the first character, or further on. -/
theorem hides_cons {c : Char} {rest : List Char} :
    Hides begins (c :: rest) ↔ c = '\n' ∧ begins rest ∨ Hides begins rest := by
  constructor
  · rintro ⟨before, line, heq, hbegins⟩
    cases before with
    | nil =>
      obtain ⟨rfl, rfl⟩ := List.cons.inj heq
      exact .inl ⟨rfl, hbegins⟩
    | cons d others =>
      obtain ⟨-, rfl⟩ := List.cons.inj heq
      exact .inr ⟨others, line, rfl, hbegins⟩
  · rintro (⟨rfl, hbegins⟩ | ⟨before, line, rfl, hbegins⟩)
    · exact ⟨[], rest, rfl, hbegins⟩
    · exact ⟨c :: before, line, rfl, hbegins⟩

/-- A search at the starts of lines looks at the text, if a line starts there, and then on. -/
theorem atLineStart_true (find : List Char → Option (List Char)) (text : List Char) :
    atLineStart find true text = (find text <|> atLineStart find false text) := by
  cases text with
  | nil => cases h : find [] <;> simp [atLineStart, h]
  | cons c rest => rfl

/-- Something is found at the start of a later line if one of them begins with it. -/
theorem Recognizes.isSome_atLineStart_iff (hfind : Recognizes find begins) {text : List Char} :
    (atLineStart find false text).isSome ↔ Hides begins text := by
  induction text with
  | nil =>
    refine ⟨nofun, ?_⟩
    rintro ⟨before, line, heq, -⟩
    exact absurd heq.symm (List.append_ne_nil_of_right_ne_nil before (List.cons_ne_nil _ _))
  | cons c rest ih =>
    rw [hides_cons, ← ih, ← hfind.isSome_iff]
    show (atLineStart find (c == '\n') rest).isSome ↔ _
    by_cases hc : c = '\n'
    · rw [beq_iff_eq.2 hc, atLineStart_true, isSome_orElse_iff]
      exact or_congr_left (iff_and_self.2 fun _ => hc)
    · rw [beq_false_of_ne hc]
      exact ⟨.inr, fun h => h.resolve_left fun hline => hc hline.1⟩

/-- A search that stops at a star finds something in a comment, or goes on behind it. -/
theorem atLineStart_star (hstops : StopsAtStar find) (isStart : Bool) (script : List Char) :
    atLineStart find isStart (comment ++ '*' :: '/' :: '\n' :: script) =
      ((atLineStart find isStart comment).map (· ++ '*' :: '/' :: '\n' :: script) <|>
        atLineStart find true script) := by
  induction comment generalizing isStart with
  | nil =>
    have hstart := hstops [] ('/' :: '\n' :: script)
    cases isStart with
    | false => rfl
    | true =>
      show (find ([] ++ '*' :: '/' :: '\n' :: script) <|> atLineStart find true script) = _
      rw [hstart]
      rfl
  | cons c later ih =>
    have hstart := hstops (c :: later) ('/' :: '\n' :: script)
    rw [List.cons_append] at hstart ⊢
    cases isStart with
    | false => exact ih (c == '\n')
    | true =>
      rw [atLineStart, atLineStart, if_pos rfl, if_pos rfl, ih, hstart]
      cases find (c :: later) <;> rfl

/-- A search looks at the lines of a comment but for the first one, and then at the script behind
it. -/
theorem Recognizes.atLineStart_behindComment (hfind : Recognizes find begins)
    (script : List Char) :
    atLineStart find true (behindComment comment script) =
      ((atLineStart find false comment).map (· ++ '*' :: '/' :: '\n' :: script) <|>
        atLineStart find true script) := by
  rw [behindComment, atLineStart_true, hfind.slash]
  exact atLineStart_star hfind.stops false script

/-- Behind a comment a search goes on if none of the lines begins with what it finds. -/
theorem Recognizes.atLineStart_of_not_hides (hfind : Recognizes find begins)
    (h : ¬ Hides begins comment) (script : List Char) :
    atLineStart find true (behindComment comment script) = atLineStart find true script := by
  rw [← hfind.isSome_atLineStart_iff, Option.not_isSome_iff_eq_none] at h
  rw [hfind.atLineStart_behindComment, h]
  rfl

/-- What is found in a comment goes on behind it. -/
theorem Recognizes.atLineStart_of_hides (hfind : Recognizes find begins)
    (h : Hides begins comment) (script : List Char) :
    ∃ value, atLineStart find true (behindComment comment script) =
      some (value ++ '*' :: '/' :: '\n' :: script) := by
  rw [← hfind.isSome_atLineStart_iff, Option.isSome_iff_exists] at h
  obtain ⟨value, hvalue⟩ := h
  refine ⟨value, ?_⟩
  rw [hfind.atLineStart_behindComment, hvalue]
  rfl

end Comment

/-- What a script exports is found behind a comment that hides no export and no binding. -/
theorem exported_behindComment {comment script : List Char} (hexport : ¬ Hides BeginsExport comment)
    (hbinding : ∀ name, ExportsName script name → ¬ Hides (BeginsBinding name) comment) :
    exported (behindComment comment script) = exported script := by
  rw [exported, exported, recognizes_export.atLineStart_of_not_hides hexport]
  cases hvalue : atLineStart afterExport true script with
  | none => rfl
  | some value =>
    cases hsplit : splitName value with
    | none => simp only [hsplit]
    | some found =>
      obtain ⟨chars, rest⟩ := found
      obtain ⟨name, rfl, rfl⟩ := exists_name hsplit
      have hfound := (recognizes_binding name).atLineStart_of_not_hides
        (hbinding name ⟨rest, hvalue, hsplit⟩) script
      simp only [hsplit, hfound]

/-- The options of a script depend on what it exports. -/
theorem evaluate_congr {first second : String}
    (h : exported first.toList = exported second.toList) : evaluate first = evaluate second := by
  rw [evaluate, evaluate, h]

/-- The characters of a script behind a comment. -/
theorem toList_comment (comment script : String) :
    ("/*" ++ comment ++ "*/\n" ++ script).toList =
      behindComment comment.toList script.toList := by
  simp [behindComment, String.toList_append]

/-- A block comment in front of a script changes nothing, whatever is in it, if none of its lines
begins an export, or a binding of the name that the script exports. -/
theorem evaluate_ignores_comment {comment script : String}
    (hexport : ¬ Hides BeginsExport comment.toList)
    (hbinding : ∀ name, ExportsName script.toList name →
      ¬ Hides (BeginsBinding name) comment.toList) :
    evaluate ("/*" ++ comment ++ "*/\n" ++ script) = evaluate script := by
  refine evaluate_congr ?_
  rw [toList_comment]
  exact exported_behindComment hexport hbinding

/-- A comment with a word of an export behind a star, a binding of a name that is not exported, and
a bracket and a quote that are not closed. -/
def remark : String :=
  "* The options.\n * export default is below.\nlet m = [\x27\n"

/-- A script that exports a name. -/
def exportsShortName : List Char :=
  (Spelling.binding .const shortName).text (Json.Printer.compact (.object semiFalse)) [';']

/-- The remark changes nothing in front of a script that exports another name than it binds. -/
theorem evaluate_ignores_remark :
    ¬ Hides BeginsExport remark.toList ∧
      (∀ name, ExportsName exportsShortName name → ¬ Hides (BeginsBinding name) remark.toList) ∧
      evaluate ("/*" ++ remark ++ "*/\n" ++ String.ofList exportsShortName) =
        .ok (FormatOptions.empty.set .semi (some false)) := by
  have hexport : ¬ Hides BeginsExport remark.toList := by
    rw [← recognizes_export.isSome_atLineStart_iff]
    decide +kernel
  have hbinding : ∀ name, ExportsName exportsShortName name →
      ¬ Hides (BeginsBinding name) remark.toList := by
    rintro name ⟨rest, hvalue, hsplit⟩
    have hsame : name.chars = shortName.chars := by
      have hobject := Json.isObject_compact bounded_semiFalse
      rw [exportsShortName, atLineStart_binding hobject .const shortName ends_semicolon] at hvalue
      rw [← Option.some.inj hvalue,
        splitName_append shortName fun c hc => (ends_semicolon c hc).1] at hsplit
      exact (Prod.mk.inj (Option.some.inj hsplit)).1.symm
    rw [← (recognizes_binding name).isSome_atLineStart_iff, hsame]
    decide +kernel
  refine ⟨hexport, hbinding, ?_⟩
  rw [evaluate_ignores_comment hexport (by rwa [String.toList_ofList]), exportsShortName,
    evaluate_text (Json.isObject_compact bounded_semiFalse) ends_semicolon,
    literalOptions_compact bounded_semiFalse]
  rfl

/-- An export or a binding in a comment is found before the one of the script. -/
theorem commented_out_comes_first (comment script : List Char) :
    (Hides BeginsExport comment →
      ∃ value, atLineStart afterExport true (behindComment comment script) =
        some (value ++ '*' :: '/' :: '\n' :: script)) ∧
    ∀ name : Name, Hides (BeginsBinding name) comment →
      ∃ value, atLineStart (afterBinding name.chars) true (behindComment comment script) =
        some (value ++ '*' :: '/' :: '\n' :: script) := by
  constructor
  · intro h
    exact recognizes_export.atLineStart_of_hides h script
  · intro name h
    exact (recognizes_binding name).atLineStart_of_hides h script

/-- A value that is exported on a line of a comment is exported. -/
theorem exported_in_comment {value : List Char} (hsolid : Solid value)
    (hname : splitName value = none) :
    exported ('/' :: '*' :: '\n' :: ("module.exports = ".toList ++ value)) = .ok value := by
  have hexport : afterExport ("module.exports = ".toList ++ value) = some (trimFront value) := rfl
  rw [trimFront_of_solid hsolid] at hexport
  have hfound : atLineStart afterExport true
      ('/' :: '*' :: '\n' :: ("module.exports = ".toList ++ value)) = some value := by
    show atLineStart afterExport true ("module.exports = ".toList ++ value) = some value
    exact atLineStart_of_some hexport
  simp only [exported, hfound, hname]

/-- The options of an object that is exported on a line of a comment are read. -/
theorem evaluate_in_comment {literal : List Char} (h : Json.IsObject literal) (rest : List Char) :
    evaluate (String.ofList ('/' :: '*' :: '\n' ::
      ("module.exports = ".toList ++ (literal ++ rest)))) = literalOptions literal := by
  obtain ⟨hsolid, hname, -⟩ := solid_of_isObject h rest
  exact evaluate_of_exported (exported_in_comment hsolid hname) (objectLiteral_append h rest)

/-- The options of an object without members. -/
theorem evaluate_noMembers : evaluate "module.exports = \x7b\x7d;" = .ok FormatOptions.empty := by
  have hbounded : (Json.Value.object []).Bounded (fun _ => False) 2 :=
    ⟨by decide, by simp [Entries.Sorted], by simp⟩
  have htext : Spelling.moduleExports.text (Json.Printer.compact (.object [])) [';'] =
      "module.exports = \x7b\x7d;".toList := by decide +kernel
  have hoptions := evaluate_text (Json.isObject_compact hbounded) ends_semicolon .moduleExports
  rw [literalOptions_compact hbounded, htext, String.ofList_toList] at hoptions
  rw [hoptions]
  rfl

/-- The options of an old export in a comment are read, and those of the script are not. -/
theorem commented_export_is_read :
    ¬ ∀ comment script : String, ¬ ['*', '/'] <:+: comment.toList →
      evaluate ("/*" ++ comment ++ "*/\n" ++ script) = evaluate script := by
  intro h
  have hsame := h "\nmodule.exports = \x7b\"semi\":false\x7d;\n" "module.exports = \x7b\x7d;"
    (by decide +kernel)
  have htext : ("/*" ++ "\nmodule.exports = \x7b\"semi\":false\x7d;\n" ++ "*/\n" ++
      "module.exports = \x7b\x7d;") = String.ofList ('/' :: '*' :: '\n' ::
        ("module.exports = ".toList ++ (Json.Printer.compact (.object semiFalse) ++
          ";\n*/\nmodule.exports = \x7b\x7d;".toList))) := by
    decide +kernel
  have hdecode : (FormatOptions.decode (.object semiFalse)).mapError ScriptError.mismatch =
      .ok (FormatOptions.empty.set .semi (some false)) := rfl
  rw [evaluate_noMembers, htext, evaluate_in_comment (Json.isObject_compact bounded_semiFalse),
    literalOptions_compact bounded_semiFalse, hdecode] at hsame
  have hsemi := congrArg (fun options => options.get .semi) (Except.ok.inj hsame)
  rw [FormatOptions.get_set_self] at hsemi
  exact absurd hsemi nofun

end EditorFormat.Config.Script
