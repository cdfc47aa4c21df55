import EditorFormat.Proofs.Config.Literals
import EditorFormat.Proofs.Json5.Readback

/-!
# The spellings of an export

An object literal may be exported in place, through a constant that is declared in place, or through
a binding on a line of its own. Each spelling leads to the literal, and the text behind the literal
and behind the exported name is left where it is (`exported_text`).
-/

namespace EditorFormat.Config.Script

open Json (IsObject Value Object)
open Json.Printer (compact)
open Text (isBlank trimFront Ranges)

/-! ## Names -/

/-- A character of a name is no blank. -/
theorem isBlank_of_isNameChar {c : Char} (h : isNameChar c = true) : isBlank c = false := by
  rw [isNameChar, Bool.or_eq_true, beq_iff_eq, Text.isWordChar_eq_has] at h
  rcases h with rfl | hword
  · decide
  · exact Ranges.not_has_of_disjoint (by decide +kernel) hword

/-- The characters of ASCII within a name. -/
theorem isNameChar_of_ascii {c : Char} {found : Bool}
    (h : c.toNat < 128 ∧ (c == '$' || (c.isAlphanum || c == '_')) = found) :
    isNameChar c = found := by
  rw [isNameChar, (Text.classes_of_ascii h.1).2.2, h.2]

/-- What begins a name goes on with one. -/
theorem isNameChar_of_isNameStart {c : Char} (h : isNameStart c = true) : isNameChar c = true := by
  simp only [isNameStart, Bool.or_eq_true, beq_iff_eq] at h
  rcases h with (hletter | rfl) | rfl
  · have hascii : c.toNat < 128 := by
      rcases Bool.or_eq_true_iff.1 hletter with hupper | hlower
      · have hlast := (of_decide_eq_true hupper).2
        exact Nat.lt_of_le_of_lt (UInt32.le_iff_toNat_le.1 hlast) (by decide)
      · have hlast := of_decide_eq_true (Bool.and_eq_true_iff.1 hlower).2
        exact Nat.lt_of_le_of_lt (UInt32.le_iff_toNat_le.1 hlast) (by decide)
    exact isNameChar_of_ascii ⟨hascii, by simp [Char.isAlphanum, hletter]⟩
  · exact isNameChar_of_ascii (by decide)
  · exact isNameChar_of_ascii (by decide)

/-- A name of a script. -/
structure Name where
  first : Char
  later : List Char
  isStart : isNameStart first = true
  areChars : ∀ c ∈ later, isNameChar c = true

namespace Name

/-- The characters of a name. -/
def chars (name : Name) : List Char :=
  name.first :: name.later

/-- All characters of a name may go on with it. -/
theorem isNameChar_of_mem {name : Name} {c : Char} (h : c ∈ name.chars) : isNameChar c = true := by
  rcases List.mem_cons.1 h with rfl | hlater
  · exact isNameChar_of_isNameStart name.isStart
  · exact name.areChars c hlater

/-- A name is on one line. -/
theorem newline_notMem (name : Name) : '\n' ∉ name.chars := by
  intro hmem
  exact absurd (isBlank_of_isNameChar (isNameChar_of_mem hmem)) (by decide)

end Name

/-- A text behind a name: it goes on neither with the name nor with a blank. -/
def Ends (text : List Char) : Prop :=
  ∀ c ∈ text.head?, isNameChar c = false ∧ isBlank c = false

/-- A semicolon ends a name. -/
theorem ends_semicolon : Ends [';'] := by
  rintro c ⟨⟩
  exact ⟨isNameChar_of_ascii (by decide), by decide⟩

/-- A name is split off where it ends. -/
theorem splitName_append (name : Name) {rest : List Char}
    (h : ∀ c ∈ rest.head?, isNameChar c = false) :
    splitName (name.chars ++ rest) = some (name.chars, rest) := by
  have htake : (name.later ++ rest).takeWhile isNameChar = name.later := by
    rw [List.takeWhile_append_of_pos name.areChars]
    cases rest with
    | nil => simp
    | cons c others => simp [h c rfl]
  have hdrop : (name.later ++ rest).dropWhile isNameChar = rest := by
    rw [List.dropWhile_append_of_pos name.areChars]
    cases rest with
    | nil => simp
    | cons c others => simp [h c rfl]
  rw [Name.chars, List.cons_append, splitName, if_pos name.isStart, htake, hdrop]

/-! ## Parts of an export -/

/-- A text that does not begin with a blank. -/
def Solid (text : List Char) : Prop :=
  ∀ c ∈ text.head?, isBlank c = false

/-- A name does not begin with a blank. -/
theorem Name.solid (name : Name) (rest : List Char) : Solid (name.chars ++ rest) := by
  rintro c ⟨⟩
  exact isBlank_of_isNameChar (isNameChar_of_mem List.mem_cons_self)

/-- Nothing is trimmed off a solid text. -/
theorem trimFront_of_solid {text : List Char} (h : Solid text) : trimFront text = text := by
  cases text with
  | nil => rfl
  | cons c rest => exact List.dropWhile_cons_of_neg (by simp [h c rfl])

/-- There is no blank where a solid text begins. -/
theorem afterBlanks_of_solid {text : List Char} (h : Solid text) : afterBlanks text = none := by
  cases text with
  | nil => rfl
  | cons c rest =>
    rw [afterBlanks, h c rfl]
    rfl

/-- A word is passed over. -/
theorem afterWord_append (word rest : List Char) : afterWord word (word ++ rest) = some rest := by
  rw [afterWord, if_pos (List.isPrefixOf_iff_prefix.2 (List.prefix_append word rest)),
    List.drop_left]

/-- A declaration with an equals sign between two blanks is passed over. -/
theorem afterConstant_append (name : Name) {value : List Char} (h : Solid value) :
    afterConstant ("const ".toList ++ (name.chars ++ (" = ".toList ++ value))) = some value := by
  have hword : afterWord "const".toList
      ("const ".toList ++ (name.chars ++ (" = ".toList ++ value))) =
        some (' ' :: (name.chars ++ (" = ".toList ++ value))) := rfl
  have hblank : afterBlanks (' ' :: (name.chars ++ (" = ".toList ++ value))) =
      some (trimFront (name.chars ++ (" = ".toList ++ value))) := rfl
  have hequals : afterEquals (" = ".toList ++ value) = some (trimFront value) := rfl
  have hends : ∀ c ∈ (" = ".toList ++ value).head?, isNameChar c = false := by
    rintro c ⟨⟩
    exact isNameChar_of_ascii (by decide)
  rw [trimFront_of_solid (name.solid _)] at hblank
  rw [trimFront_of_solid h] at hequals
  simp only [afterConstant, hword, hblank, splitName_append name hends, hequals,
    Option.bind_eq_bind, Option.bind_some]

/-- No declaration is read off a text that begins with another word. -/
theorem afterConstant_of_not_word {text : List Char} (h : afterWord "const".toList text = none) :
    afterConstant text = none := by
  rw [afterConstant, h]
  rfl

/-- A word within a name is followed by no blank. -/
theorem solid_drop_of_word {word chars rest : List Char}
    (hword : ∀ c ∈ word, isNameChar c = true) (hchars : ∀ c ∈ chars, isNameChar c = true)
    (hrest : Ends rest) (h : word.isPrefixOf (chars ++ rest) = true) :
    Solid ((chars ++ rest).drop word.length) := by
  induction word generalizing chars with
  | nil =>
    cases chars with
    | nil => exact fun c hc => (hrest c hc).2
    | cons c others =>
      rintro d ⟨⟩
      exact isBlank_of_isNameChar (hchars c List.mem_cons_self)
  | cons first others ih =>
    cases chars with
    | nil =>
      cases rest with
      | nil => exact absurd h nofun
      | cons c later =>
        -- the name would go on
        rw [List.nil_append, List.isPrefixOf_cons_cons, Bool.and_eq_true, beq_iff_eq] at h
        have hends := (hrest c rfl).1
        rw [← h.1, hword first List.mem_cons_self] at hends
        exact Bool.noConfusion hends
    | cons c later =>
      rw [List.cons_append, List.isPrefixOf_cons_cons, Bool.and_eq_true] at h
      exact ih (fun d hd => hword d (List.mem_cons_of_mem _ hd))
        (fun d hd => hchars d (List.mem_cons_of_mem _ hd)) h.2

/-- No declaration is read off a name. -/
theorem afterConstant_name (name : Name) {rest : List Char} (h : Ends rest) :
    afterConstant (name.chars ++ rest) = none := by
  by_cases hprefix : "const".toList.isPrefixOf (name.chars ++ rest) = true
  · have hword : ∀ c ∈ "const".toList, isNameChar c = true :=
      fun c hc => isNameChar_of_ascii (by revert c; simp)
    have hsolid := solid_drop_of_word hword (fun c => name.isNameChar_of_mem) h hprefix
    rw [afterConstant, afterWord, if_pos hprefix]
    simp only [Option.bind_eq_bind, Option.bind_some, afterBlanks_of_solid hsolid]
    rfl
  · rw [afterConstant, afterWord, if_neg hprefix]
    rfl

/-! ## Whole scripts -/

/-- The words that declare a binding. -/
inductive Keyword where
  | const
  | let
  | var

/-- A keyword as it is written. -/
def Keyword.text : Keyword → List Char
  | .const => "const".toList
  | .let => "let".toList
  | .var => "var".toList

/-- How a script exports an object literal. -/
inductive Spelling where
  | moduleExports
  | exportDefault
  /-- Through a constant that is declared in the export. -/
  | exportConstant (name : Name)
  /-- Through a binding on the line before the export. -/
  | binding (keyword : Keyword) (name : Name)

/-- The script that exports a literal, with some text behind what is exported. -/
def Spelling.text (literal rest : List Char) : Spelling → List Char
  | .moduleExports => "module.exports = ".toList ++ (literal ++ rest)
  | .exportDefault => "export default ".toList ++ (literal ++ rest)
  | .exportConstant name =>
    "export default ".toList ++ ("const ".toList ++ (name.chars ++ (" = ".toList ++
      (literal ++ rest))))
  | .binding keyword name =>
    keyword.text ++ ' ' :: (name.chars ++ (" = ".toList ++ (literal ++
      ';' :: '\n' :: ("export default ".toList ++ (name.chars ++ rest)))))

/-- The script with a binding, as a whole. -/
theorem Spelling.text_binding (literal rest : List Char) (keyword : Keyword) (name : Name) :
    (Spelling.binding keyword name).text literal rest =
      keyword.text ++ ' ' :: (name.chars ++ (" = ".toList ++ (literal ++
        ';' :: '\n' :: ("export default ".toList ++ (name.chars ++ rest))))) :=
  rfl

/-- What is found at the start of a text is found first. -/
theorem atLineStart_of_some {find : List Char → Option (List Char)} {text found : List Char}
    (h : find text = some found) : atLineStart find true text = some found := by
  cases text with
  | nil => exact h
  | cons c rest =>
    rw [atLineStart, if_pos rfl, h]
    rfl

/-- Behind a newline a line starts. -/
theorem atLineStart_newline (find : List Char → Option (List Char)) (text : List Char) :
    atLineStart find false (';' :: '\n' :: text) = atLineStart find true text :=
  rfl

/-- What is exported by default, but for a declaration, is all of the text. -/
theorem afterExport_default {value : List Char} (h : Solid value) :
    afterExport ("export default ".toList ++ value) = some ((afterConstant value).getD value) := by
  have hexport : afterExport ("export default ".toList ++ value) =
      some ((afterConstant (trimFront value)).getD (trimFront value)) := rfl
  rw [hexport, trimFront_of_solid h]

/-- A binding of a name is followed by its value. -/
theorem afterBinding_append (keyword : Keyword) (name : Name) {value : List Char}
    (h : Solid value) :
    afterBinding name.chars (keyword.text ++ ' ' :: (name.chars ++ (" = ".toList ++ value))) =
      some value := by
  have htrim (rest : List Char) : trimFront (keyword.text ++ rest) = keyword.text ++ rest := by
    cases keyword <;> rfl
  have hkeyword (rest : List Char) : (afterWord "const".toList (keyword.text ++ rest) <|>
      afterWord "let".toList (keyword.text ++ rest) <|>
        afterWord "var".toList (keyword.text ++ rest)) = some rest := by
    cases keyword <;> rfl
  have hblank : afterBlanks (' ' :: (name.chars ++ (" = ".toList ++ value))) =
      some (trimFront (name.chars ++ (" = ".toList ++ value))) := rfl
  have hequals : afterEquals (" = ".toList ++ value) = some (trimFront value) := rfl
  rw [trimFront_of_solid (name.solid _)] at hblank
  rw [trimFront_of_solid h] at hequals
  rw [afterBinding, htrim]
  simp only [hkeyword, hblank, afterWord_append, hequals, Option.bind_eq_bind, Option.bind_some]

variable {literal rest : List Char}

/-- An object begins with a brace, so it begins neither a name nor a declaration. -/
theorem solid_of_isObject (h : IsObject literal) (rest : List Char) :
    Solid (literal ++ rest) ∧ splitName (literal ++ rest) = none ∧
      afterConstant (literal ++ rest) = none := by
  obtain ⟨contents, -, rfl⟩ := contents_of_isObject h
  refine ⟨?_, rfl, afterConstant_of_not_word rfl⟩
  rintro c ⟨⟩
  decide

/-- Behind a binding the export is found on the next line. -/
theorem atLineStart_binding (hliteral : IsObject literal) (keyword : Keyword) (name : Name)
    (hrest : Ends rest) :
    atLineStart afterExport true ((Spelling.binding keyword name).text literal rest) =
      some (name.chars ++ rest) := by
  have hnewline : '\n' ∉ keyword.text ++ ' ' :: (name.chars ++ " = ".toList) := by
    have hword : '\n' ∉ keyword.text := by cases keyword <;> decide
    simp [hword, name.newline_notMem]
  have hahead : NoExportAhead ((Spelling.binding keyword name).text literal rest) := by
    cases keyword <;> exact noExportAhead_cons (by decide) (by decide) (by decide) _
  have hbehind : NoExportAhead
      (';' :: '\n' :: ("export default ".toList ++ (name.chars ++ rest))) :=
    noExportAhead_cons (by decide) (by decide) (by decide) _
  have hexport : afterExport ("export default ".toList ++ (name.chars ++ rest)) =
      some (name.chars ++ rest) := by
    rw [afterExport_default (name.solid rest), afterConstant_name name hrest, Option.getD_none]
  have hne : (Spelling.binding keyword name).text literal rest ≠ [] := by
    cases keyword <;> exact List.cons_ne_nil _ _
  have htext : (Spelling.binding keyword name).text literal rest =
      (keyword.text ++ ' ' :: (name.chars ++ " = ".toList)) ++
        (literal ++ ';' :: '\n' :: ("export default ".toList ++ (name.chars ++ rest))) := by
    rw [Spelling.text_binding, List.append_assoc, List.cons_append, List.append_assoc]
  rw [atLineStart_of_none hne (afterExport_eq_none hahead), htext, atLineStart_append hnewline,
    (inert_of_isJson hliteral.value).silent hbehind, atLineStart_newline,
    atLineStart_of_some hexport]

/-- What is exported in place, and is no name, is all of the text behind the equals sign. -/
theorem exported_moduleExports {value : List Char} (hsolid : Solid value)
    (hname : splitName value = none) :
    exported ("module.exports = ".toList ++ value) = .ok value := by
  have hexport : afterExport ("module.exports = ".toList ++ value) = some (trimFront value) := rfl
  rw [trimFront_of_solid hsolid] at hexport
  simp only [exported, atLineStart_of_some hexport, hname]

/-- Each spelling leads to the literal, whatever is behind it. -/
theorem exported_text (hliteral : IsObject literal) (hrest : Ends rest) (spelling : Spelling) :
    ∃ behind, exported (spelling.text literal rest) = .ok (literal ++ behind) := by
  obtain ⟨hsolid, hname, hconstant⟩ := solid_of_isObject hliteral rest
  cases spelling with
  | moduleExports => exact ⟨rest, exported_moduleExports hsolid hname⟩
  | exportDefault =>
    have hexport : afterExport (Spelling.exportDefault.text literal rest) =
        some (literal ++ rest) :=
      (afterExport_default hsolid).trans (by rw [hconstant, Option.getD_none])
    refine ⟨rest, ?_⟩
    simp only [exported, atLineStart_of_some hexport, hname]
  | exportConstant name =>
    have hexport : afterExport ((Spelling.exportConstant name).text literal rest) =
        some (literal ++ rest) := by
      have hdeclared : Solid ("const ".toList ++ (name.chars ++ (" = ".toList ++
          (literal ++ rest)))) := by
        rintro c ⟨⟩
        decide
      exact (afterExport_default hdeclared).trans
        (by rw [afterConstant_append name hsolid, Option.getD_some])
    refine ⟨rest, ?_⟩
    simp only [exported, atLineStart_of_some hexport, hname]
  | binding keyword name =>
    obtain ⟨hvalue, -, -⟩ := solid_of_isObject hliteral
      (';' :: '\n' :: ("export default ".toList ++ (name.chars ++ rest)))
    have hbinding := atLineStart_of_some (afterBinding_append keyword name hvalue)
    have hsplit := splitName_append name fun c hc => (hrest c hc).1
    refine ⟨';' :: '\n' :: ("export default ".toList ++ (name.chars ++ rest)), ?_⟩
    rw [exported, atLineStart_binding hliteral keyword name hrest]
    simp only [hsplit]
    rw [Spelling.text_binding, hbinding]

/-- The options in an object literal that was found. -/
def literalOptions (literal : List Char) : Except ScriptError FormatOptions :=
  match Json5.read? (String.ofList literal) with
  | none => .error .badLiteral
  | some (.object members) =>
    match FormatOptions.decode (wholeNumbers (.object members)) with
    | .ok options => .ok options
    | .error cause => .error (.mismatch cause)
  | some _ => .error .notObject

/-- The options of a script are those of the literal in front of what it exports. -/
theorem evaluate_ofList (text : List Char) :
    evaluate (String.ofList text) = (exported text).bind fun expression =>
      (objectLiteral expression).bind literalOptions := by
  rw [evaluate, String.toList_ofList]
  rfl

/-- The options of a script are those of the literal that is found in what it exports. -/
theorem evaluate_of_exported {text value : List Char} (hexported : exported text = .ok value)
    (hliteral : objectLiteral value = .ok literal) :
    evaluate (String.ofList text) = literalOptions literal := by
  rw [evaluate_ofList, hexported]
  exact congrArg (Except.bind · literalOptions) hliteral

/-- The options of a script are those of the literal that it exports, whatever is behind it. -/
theorem evaluate_text (hliteral : IsObject literal) (hrest : Ends rest) (spelling : Spelling) :
    evaluate (String.ofList (spelling.text literal rest)) = literalOptions literal := by
  obtain ⟨behind, hexported⟩ := exported_text hliteral hrest spelling
  exact evaluate_of_exported hexported (objectLiteral_append hliteral behind)

/-! ## Compact literals -/

/-- Items of which none changes do not change. -/
theorem wholeItems_eq_self {items : List Value} (h : ∀ item ∈ items, wholeNumbers item = item) :
    wholeItems items = items := by
  induction items with
  | nil => rfl
  | cons item rest ih =>
    obtain ⟨hitem, hrest⟩ := List.forall_mem_cons.1 h
    rw [wholeItems, hitem, ih hrest]

/-- Members of which no value changes do not change. -/
theorem wholeMembers_eq_self {members : List (String × Value)}
    (h : ∀ member ∈ members, wholeNumbers member.2 = member.2) :
    wholeMembers members = members := by
  induction members with
  | nil => rfl
  | cons member rest ih =>
    obtain ⟨name, value⟩ := member
    obtain ⟨hvalue, hrest⟩ := List.forall_mem_cons.1 h
    rw [wholeMembers, hvalue, ih hrest]

/-- A value without floats does not change. -/
theorem wholeNumbers_eq_self {depth : Nat} {value : Value}
    (h : value.Bounded (fun _ => False) depth) : wholeNumbers value = value := by
  induction depth generalizing value with
  | zero => exact absurd h id
  | succ depth ih =>
    cases value with
    | float x => exact absurd h id
    | array items =>
      rw [wholeNumbers, wholeItems_eq_self fun item hitem => ih (h.2 item hitem)]
    | object members =>
      rw [wholeNumbers, wholeMembers_eq_self fun member hmember => ih (h.2.2 member hmember)]
    | _ => rw [wholeNumbers]; all_goals nofun

/-- The options in the compact text of an object are those of the object. -/
theorem literalOptions_compact {depth : Nat} {members : Object}
    (h : (Value.object members).Bounded (fun _ => False) depth) :
    literalOptions (compact (.object members)) =
      (FormatOptions.decode (.object members)).mapError .mismatch := by
  rw [literalOptions, Json5.read_compact h]
  simp only [wholeNumbers_eq_self h]
  cases FormatOptions.decode (.object members) <;> rfl

end EditorFormat.Config.Script
