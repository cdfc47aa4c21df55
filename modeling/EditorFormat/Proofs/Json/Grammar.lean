import EditorFormat.Proofs.Json.Readback

/-!
# The grammar of JSON texts

`IsJson` says which texts are JSON, without saying what they denote: blanks may stand on either side
of every token, the items of a container are separated by commas, and none follows the last one.
The compact written form of a value without floats is such a text (`isJson_compact`).
-/

namespace EditorFormat.Json

open Reader (isBlank hexDigit?)

/-! ## Tokens -/

/-- Any number of blanks. -/
def Blanks (text : List Char) : Prop :=
  ∀ c ∈ text, isBlank c = true

/-- One digit or more. -/
def Digits (text : List Char) : Prop :=
  text ≠ [] ∧ ∀ c ∈ text, c.isDigit = true

/-- The text of a number: a sign, digits of which only a lone zero is the first, a fraction and an
exponent. All but the digits may be missing. -/
inductive NumberText : List Char → Prop where
  | mk {sign whole fraction power : List Char}
      (hsign : sign = [] ∨ sign = ['-'])
      (hwhole : whole = ['0'] ∨ Digits whole ∧ whole.head? ≠ some '0')
      (hfraction : fraction = [] ∨ ∃ digits, Digits digits ∧ fraction = '.' :: digits)
      (hpower : power = [] ∨ ∃ mark sign digits, mark ∈ ['e', 'E'] ∧
        sign ∈ [[], ['+'], ['-']] ∧ Digits digits ∧ power = mark :: sign ++ digits) :
      NumberText (sign ++ whole ++ fraction ++ power)

/-- The text of a string behind its opening quote, with the closing one. -/
inductive StringText : List Char → Prop where
  | close : StringText ['"']
  | plain {c : Char} {rest : List Char} (hquote : c ≠ '"') (hslash : c ≠ '\\')
      (hcontrol : ¬ c.toNat < 0x20) (h : StringText rest) : StringText (c :: rest)
  | escape {c : Char} {rest : List Char} (hc : c ∈ ['"', '\\', '/', 'b', 'f', 'n', 'r', 't'])
      (h : StringText rest) : StringText ('\\' :: c :: rest)
  | unicode {first second third fourth : Char} {rest : List Char}
      (hdigits : ∀ digit ∈ [first, second, third, fourth], (hexDigit? digit).isSome = true)
      (h : StringText rest) :
      StringText ('\\' :: 'u' :: first :: second :: third :: fourth :: rest)

/-! ## Values -/

/-- The brackets of arrays and of objects. -/
inductive Bracket where
  | square
  | curly
deriving DecidableEq

/-- The bracket at the front of a container. -/
def Bracket.opening : Bracket → Char
  | .square => '['
  | .curly => '\x7b'

/-- The bracket at the end of a container. -/
def Bracket.closing : Bracket → Char
  | .square => ']'
  | .curly => '\x7d'

/-- What a text may be a part of. -/
inductive Part where
  | value
  /-- A key with its value. -/
  | member
  /-- All that is between two brackets, if it is not empty. -/
  | contents (bracket : Bracket)

/-- What is between two brackets is made up of. -/
def Bracket.element : Bracket → Part
  | .square => .value
  | .curly => .member

/-- A text is JSON. -/
inductive IsJson : Part → List Char → Prop where
  | word {text : List Char} (h : text ∈ ["null".toList, "true".toList, "false".toList]) :
      IsJson .value text
  | number {text : List Char} (h : NumberText text) : IsJson .value text
  | string {text : List Char} (h : StringText text) : IsJson .value ('"' :: text)
  | empty (bracket : Bracket) {blanks : List Char} (hblanks : Blanks blanks) :
      IsJson .value (bracket.opening :: (blanks ++ [bracket.closing]))
  | container {bracket : Bracket} {contents : List Char} (h : IsJson (.contents bracket) contents) :
      IsJson .value (bracket.opening :: (contents ++ [bracket.closing]))
  | member {key before after value : List Char} (hkey : StringText key) (hbefore : Blanks before)
      (hafter : Blanks after) (hvalue : IsJson .value value) :
      IsJson .member ('"' :: (key ++ (before ++ ':' :: (after ++ value))))
  | last {bracket : Bracket} {before element after : List Char} (hbefore : Blanks before)
      (helement : IsJson bracket.element element) (hafter : Blanks after) :
      IsJson (.contents bracket) (before ++ (element ++ after))
  | next {bracket : Bracket} {before element after rest : List Char} (hbefore : Blanks before)
      (helement : IsJson bracket.element element) (hafter : Blanks after)
      (hrest : IsJson (.contents bracket) rest) :
      IsJson (.contents bracket) (before ++ (element ++ (after ++ ',' :: rest)))

/-- A text is a JSON object. -/
structure IsObject (text : List Char) : Prop where
  value : IsJson .value text
  brace : text.head? = some '\x7b'

/-! ## Numbers -/

/-- A number begins with a minus or a digit. -/
theorem NumberText.head {text : List Char} (h : NumberText text) :
    ∃ c rest, text = c :: rest ∧ (c = '-' ∨ c.isDigit = true) := by
  obtain @⟨sign, whole, fraction, power, hsign, hwhole, -, -⟩ := h
  obtain ⟨c, later, rfl, hc⟩ : ∃ c later, whole = c :: later ∧ c.isDigit = true := by
    rcases hwhole with rfl | ⟨⟨hne, hdigits⟩, -⟩
    · exact ⟨'0', [], rfl, by decide⟩
    · obtain ⟨c, later, rfl⟩ := List.exists_cons_of_ne_nil hne
      exact ⟨c, later, rfl, hdigits c List.mem_cons_self⟩
  rcases hsign with rfl | rfl
  · exact ⟨c, later ++ fraction ++ power, by simp, .inr hc⟩
  · exact ⟨'-', c :: later ++ fraction ++ power, by simp, .inl rfl⟩

/-- A number is made of digits and a few marks. -/
theorem NumberText.mem {text : List Char} (h : NumberText text) {c : Char} (hc : c ∈ text) :
    c.isDigit = true ∨ c ∈ ['-', '+', '.', 'e', 'E'] := by
  obtain @⟨sign, whole, fraction, power, hsign, hwhole, hfraction, hpower⟩ := h
  simp only [List.mem_append, or_assoc] at hc
  rcases hc with hc | hc | hc | hc
  · rcases hsign with rfl | rfl
    · exact absurd hc List.not_mem_nil
    · exact .inr (by simp_all)
  · rcases hwhole with rfl | ⟨⟨-, hdigits⟩, -⟩
    · rw [List.mem_singleton.1 hc]
      exact .inl (by decide)
    · exact .inl (hdigits c hc)
  · rcases hfraction with rfl | ⟨digits, ⟨-, hdigits⟩, rfl⟩
    · exact absurd hc List.not_mem_nil
    · rcases List.mem_cons.1 hc with rfl | hc
      · exact .inr (by simp)
      · exact .inl (hdigits c hc)
  · rcases hpower with rfl | ⟨mark, sign, digits, hmark, hsign, ⟨-, hdigits⟩, rfl⟩
    · exact absurd hc List.not_mem_nil
    · simp only [List.cons_append, List.mem_cons, List.mem_append] at hc
      rcases hc with rfl | hc | hc
      · exact .inr (by simp_all)
      · refine .inr ?_
        simp only [List.mem_cons, List.not_mem_nil, or_false] at hsign
        rcases hsign with rfl | rfl | rfl <;> simp_all
      · exact .inl (hdigits c hc)

/-! ## Strings -/

/-- A string is written on one line. -/
theorem StringText.newline_notMem {text : List Char} (h : StringText text) : '\n' ∉ text := by
  induction h with
  | close => decide
  | plain hquote hslash hcontrol h ih =>
    refine List.not_mem_cons_of_ne_of_not_mem ?_ ih
    rintro rfl
    exact hcontrol (by decide)
  | escape hc h ih =>
    refine List.not_mem_cons_of_ne_of_not_mem (by decide)
      (List.not_mem_cons_of_ne_of_not_mem ?_ ih)
    rintro rfl
    exact absurd hc (by decide)
  | unicode hdigits h ih =>
    have hne : ∀ digit, (hexDigit? digit).isSome = true → '\n' ≠ digit := by
      rintro digit hdigit rfl
      exact absurd hdigit (by decide)
    simp only [List.forall_mem_cons] at hdigits
    obtain ⟨hfirst, hsecond, hthird, hfourth, -⟩ := hdigits
    simp [ih, hne _ hfirst, hne _ hsecond, hne _ hthird, hne _ hfourth]

/-- A value begins with one of a few characters or with a digit. -/
theorem IsJson.head {text : List Char} (h : IsJson .value text) :
    ∃ c rest, text = c :: rest ∧
      (c ∈ ['n', 't', 'f', '"', '[', '\x7b', '-'] ∨ c.isDigit = true) := by
  cases h with
  | word h =>
    simp only [List.mem_cons, List.not_mem_nil, or_false] at h
    rcases h with rfl | rfl | rfl <;> exact ⟨_, _, rfl, .inl (by decide)⟩
  | number h =>
    obtain ⟨c, rest, rfl, hc⟩ := h.head
    exact ⟨c, rest, rfl, hc.imp_left fun hminus => by simp [hminus]⟩
  | string h => exact ⟨'"', _, rfl, .inl (by decide)⟩
  | empty bracket hblanks => exact ⟨_, _, rfl, .inl (by cases bracket <;> decide)⟩
  | @container bracket contents h => exact ⟨_, _, rfl, .inl (by cases bracket <;> decide)⟩

/-! ## Compact texts -/

/-- There need not be a blank. -/
theorem blanks_nil : Blanks [] :=
  nofun

/-- A written natural number has digits, and none but a lone zero begins with zero. -/
theorem digits_toDigits (n : Nat) :
    Nat.toDigits 10 n = ['0'] ∨
      Digits (Nat.toDigits 10 n) ∧ (Nat.toDigits 10 n).head? ≠ some '0' := by
  by_cases hzero : (Nat.toDigits 10 n).head? = some '0'
  · obtain ⟨later, hdigits⟩ := List.head?_eq_some_iff.1 hzero
    obtain rfl := Reader.toDigits_eq_zero_cons hdigits
    exact .inl hdigits
  · exact .inr ⟨⟨Nat.toDigits_ne_nil, fun c hc =>
      Nat.isDigit_of_mem_toDigits (by decide) (by decide) hc⟩, hzero⟩

/-- The written form of an integer. -/
theorem numberText_int (n : Int) : NumberText (Printer.int n) := by
  unfold Printer.int
  split
  · have h : NumberText (['-'] ++ Nat.toDigits 10 n.natAbs ++ [] ++ []) :=
      .mk (.inr rfl) (digits_toDigits n.natAbs) (.inl rfl) (.inl rfl)
    simpa using h
  · have h : NumberText ([] ++ Nat.toDigits 10 n.natAbs ++ [] ++ []) :=
      .mk (.inl rfl) (digits_toDigits n.natAbs) (.inl rfl) (.inl rfl)
    simpa using h

/-- The written form of a character. -/
theorem StringText.char {rest : List Char} (h : StringText rest) (c : Char) :
    StringText (Printer.char c ++ rest) := by
  unfold Printer.char
  split
  all_goals try exact .escape (by decide) h
  split
  · rename_i hcontrol
    have hdigit : ∀ n < 16, (hexDigit? (Nat.digitChar n)).isSome = true := by decide
    refine .unicode (fun digit hmem => ?_) h
    simp only [List.mem_cons, List.not_mem_nil, or_false] at hmem
    rcases hmem with rfl | rfl | rfl | rfl
    · decide
    · decide
    · exact hdigit _ (by omega)
    · exact hdigit _ (by omega)
  · rename_i hquote hslash _ _ _ _ _ hcontrol
    exact .plain hquote hslash hcontrol h

/-- The written form of a string behind its opening quote. -/
theorem stringText_string (text : String) :
    StringText (text.toList.flatMap Printer.char ++ ['"']) := by
  induction text.toList with
  | nil => exact .close
  | cons c later ih =>
    rw [List.flatMap_cons, List.append_assoc]
    exact ih.char c

/-- Texts with commas between them. -/
def commaSeparated : List (List Char) → List Char
  | [] => []
  | first :: later => first ++ later.flatMap fun element => ',' :: element

/-- Behind the first of several texts comes a comma. -/
theorem commaSeparated_cons_cons (first second : List Char) (others : List (List Char)) :
    commaSeparated (first :: second :: others) =
      first ++ ',' :: commaSeparated (second :: others) :=
  rfl

/-- A text is no longer than what it is one of. -/
theorem length_le_commaSeparated {elements : List (List Char)} {element : List Char}
    (h : element ∈ elements) : element.length ≤ (commaSeparated elements).length := by
  induction elements with
  | nil => exact absurd h List.not_mem_nil
  | cons first later ih =>
    cases later with
    | nil => rw [List.mem_singleton.1 h]; simp [commaSeparated]
    | cons second others =>
      rw [commaSeparated_cons_cons, List.length_append, List.length_cons]
      rcases List.mem_cons.1 h with rfl | hlater
      · omega
      · have hle := ih hlater
        omega

/-- There is at most one text more than there are commas. -/
theorem length_le_length_commaSeparated (elements : List (List Char)) :
    elements.length ≤ (commaSeparated elements).length + 1 := by
  induction elements with
  | nil => exact Nat.zero_le _
  | cons first later ih =>
    cases later with
    | nil => simp
    | cons second others =>
      simp only [commaSeparated_cons_cons, List.length_append, List.length_cons] at ih ⊢
      omega

/-- Elements with commas between them. -/
theorem isJson_commaSeparated {bracket : Bracket} {elements : List (List Char)}
    (hne : elements ≠ []) (h : ∀ element ∈ elements, IsJson bracket.element element) :
    IsJson (.contents bracket) (commaSeparated elements) := by
  induction elements with
  | nil => exact absurd rfl hne
  | cons first later ih =>
    obtain ⟨hfirst, hlater⟩ := List.forall_mem_cons.1 h
    cases later with
    | nil => exact .last blanks_nil hfirst blanks_nil
    | cons second others =>
      exact .next blanks_nil hfirst blanks_nil (ih (List.cons_ne_nil _ _) hlater)

/-- Items behind the first one follow commas. -/
theorem compactItems_eq (items : List Value) :
    Printer.compactItems items =
      (items.map Printer.compact).flatMap fun element => ',' :: element := by
  induction items with
  | nil => rfl
  | cons item rest ih =>
    rw [Printer.compactItems, ih]
    rfl

/-- The written form of a member. -/
def compactMember (member : String × Value) : List Char :=
  Printer.string member.1 ++ ':' :: Printer.compact member.2

/-- Members behind the first one follow commas. -/
theorem compactMembers_eq (members : List (String × Value)) :
    Printer.compactMembers members =
      (members.map compactMember).flatMap fun element => ',' :: element := by
  induction members with
  | nil => rfl
  | cons member rest ih =>
    rw [Printer.compactMembers, ih]
    simp [compactMember]

/-- The compact text of an array. -/
theorem compact_array (items : List Value) :
    Printer.compact (.array items) =
      '[' :: (commaSeparated (items.map Printer.compact) ++ [']']) := by
  cases items with
  | nil => rfl
  | cons first rest =>
    rw [Printer.compact, compactItems_eq]
    rfl

/-- The compact text of an object. -/
theorem compact_object (members : List (String × Value)) :
    Printer.compact (.object members) =
      '\x7b' :: (commaSeparated (members.map compactMember) ++ ['\x7d']) := by
  cases members with
  | nil => rfl
  | cons first rest =>
    obtain ⟨key, value⟩ := first
    rw [Printer.compact, compactMembers_eq]
    simp [compactMember, commaSeparated]

/-- The compact text of a value without floats is JSON. -/
theorem isJson_compact {depth : Nat} {value : Value} (h : value.Bounded (fun _ => False) depth) :
    IsJson .value (Printer.compact value) := by
  induction depth generalizing value with
  | zero => exact absurd h id
  | succ depth ih =>
    cases value with
    | null => exact .word (by simp [Printer.compact, Printer.scalar])
    | bool value => exact .word (by cases value <;> simp [Printer.compact, Printer.scalar])
    | int n => exact .number (numberText_int n)
    | float x => exact absurd h id
    | string text => exact .string (stringText_string text)
    | array items =>
      rw [compact_array]
      by_cases hempty : items = []
      · subst hempty
        exact .empty .square blanks_nil
      · have hcontents : IsJson (.contents .square)
            (commaSeparated (items.map Printer.compact)) := by
          refine isJson_commaSeparated (by simpa using hempty) fun element helement => ?_
          obtain ⟨item, hitem, rfl⟩ := List.mem_map.1 helement
          exact ih (h.2 item hitem)
        exact .container hcontents
    | object members =>
      rw [compact_object]
      by_cases hempty : members = []
      · subst hempty
        exact .empty .curly blanks_nil
      · have hcontents : IsJson (.contents .curly)
            (commaSeparated (members.map compactMember)) := by
          refine isJson_commaSeparated (by simpa using hempty) fun element helement => ?_
          obtain ⟨member, hmember, rfl⟩ := List.mem_map.1 helement
          exact .member (stringText_string member.1) blanks_nil blanks_nil
            (ih (h.2.2 member hmember))
        exact .container hcontents

/-- The compact text of an object without floats is a JSON object. -/
theorem isObject_compact {depth : Nat} {members : Object}
    (h : (Value.object members).Bounded (fun _ => False) depth) :
    IsObject (Printer.compact (.object members)) where
  value := isJson_compact h
  brace := by rw [compact_object]; rfl

end EditorFormat.Json
