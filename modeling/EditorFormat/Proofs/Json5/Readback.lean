import EditorFormat.Json5.Reader
import EditorFormat.Proofs.Json.Grammar

/-!
# Reading JSON as JSON5

The compact text of a value without floats denotes that value in JSON5 too (`read_compact`). The
reader allows as many open containers as the text has characters, so the induction is on the number
that is still allowed, which is more than the length of what is left of the value.
-/

namespace EditorFormat.Json5

open Json (Value Object)
open Json.Printer (compact)

/-- A reader reads a value off a text and leaves the rest. -/
def Reads {α : Type} (reader : Reader α) (text : List Char) (value : α) (rest : List Char) : Prop :=
  StateT.run reader text = some (value, rest)

section Laws

variable {α β : Type} {reader : Reader α} {text middle rest : List Char}

/-- Readers that follow each other share out the text. -/
theorem Reads.bind {next : α → Reader β} {first : α} {value : β}
    (h : Reads reader text first middle) (hnext : Reads (next first) middle value rest) :
    Reads (reader >>= next) text value rest := by
  rw [Reads, StateT.run_bind, h]
  exact hnext

/-- A value is read off no text. -/
theorem reads_pure (value : α) (text : List Char) : Reads (pure value) text value text :=
  rfl

/-- A value that was read can be changed. -/
theorem Reads.map {value : α} (h : Reads reader text value rest) (change : α → β) :
    Reads (change <$> reader) text (change value) rest := by
  rw [← bind_pure_comp]
  exact h.bind (reads_pure _ _)

/-- What follows a look at the text may depend on the text. -/
theorem reads_get_bind {next : List Char → Reader β} {value : β} :
    Reads (get >>= next) text value rest ↔ Reads (next text) text value rest :=
  Iff.rfl

/-- What follows a replaced text is read off the new one. -/
theorem reads_set_bind {left : List Char} {next : PUnit → Reader β} {value : β} :
    Reads (set left >>= next) text value rest ↔ Reads (next ⟨⟩) left value rest :=
  Iff.rfl

/-- The next character is taken off. -/
theorem reads_next (c : Char) (rest : List Char) : Reads next (c :: rest) c rest :=
  rfl

/-- A word is taken off. -/
theorem reads_word (expected rest : List Char) :
    Reads (word expected) (expected ++ rest) () rest := by
  induction expected with
  | nil => rfl
  | cons c later ih =>
    rw [word]
    refine (reads_next c (later ++ rest)).bind ?_
    rw [if_pos rfl]
    exact ih

/-- A character at which no gap begins. -/
def IsToken (c : Char) : Prop :=
  c ≠ '/' ∧ isBlank c = false

instance (c : Char) : Decidable (IsToken c) :=
  inferInstanceAs (Decidable (_ ∧ _))

/-- There is no gap in front of a token. -/
theorem skipGap_token {c : Char} (h : IsToken c) (rest : List Char) :
    skipGap .open (c :: rest) = some (c :: rest) := by
  rw [skipGap]
  · rw [h.2]
    rfl
  · exact fun _ heq _ => absurd heq h.1
  · exact fun _ heq _ => absurd heq h.1

/-- The next token is left where it is. -/
theorem reads_peekToken {c : Char} (h : IsToken c) (rest : List Char) :
    Reads peekToken (c :: rest) c (c :: rest) := by
  have hskip : Reads skipBlanks (c :: rest) () (c :: rest) := by
    rw [skipBlanks, reads_get_bind, skipGap_token h]
    rfl
  exact hskip.bind rfl

end Laws

/-! ## Strings -/

section Strings

variable {fuel : Nat} {text middle rest : List Char} {c : Char} {later : List Char}

theorem reads_stringChars_escape (h : Reads escape text [c] middle)
    (hlater : Reads (stringChars '"' fuel) middle later rest) :
    Reads (stringChars '"' (fuel + 1)) ('\\' :: text) (c :: later) rest := by
  rw [stringChars]
  exact (reads_next '\\' text).bind (h.bind (hlater.map ([c] ++ ·)))

theorem reads_stringChars_plain (hquote : c ≠ '"') (hslash : c ≠ '\\') (hcontrol : ¬ c.toNat < 0x20)
    (hlater : Reads (stringChars '"' fuel) text later rest) :
    Reads (stringChars '"' (fuel + 1)) (c :: text) (c :: later) rest := by
  have hline : ¬ (c = '\n' ∨ c = '\r') := by
    rintro (rfl | rfl) <;> exact hcontrol (by decide)
  rw [stringChars]
  refine (reads_next c text).bind ?_
  simp only [if_neg hquote, if_neg hslash, if_neg hline]
  exact hlater.map (c :: ·)

/-- A control character is escaped as two hexadecimal digits behind two zeros. -/
theorem reads_escape_control (h : c.toNat < 0x20) (rest : List Char) :
    Reads escape ('u' :: '0' :: '0' :: Nat.digitChar (c.toNat / 16) ::
      Nat.digitChar (c.toNat % 16) :: rest) [c] rest := by
  have hvalue : ∀ n < 0x20, Json.Reader.hexValue?
      ['0', '0', Nat.digitChar (n / 16), Nat.digitChar (n % 16)] = some n := by decide
  have hunit : Reads (hexDigits 4) ('0' :: '0' :: Nat.digitChar (c.toNat / 16) ::
      Nat.digitChar (c.toNat % 16) :: rest) c.toNat rest := by
    have hlength : ¬ ('0' :: '0' :: Nat.digitChar (c.toNat / 16) ::
      Nat.digitChar (c.toNat % 16) :: rest).length < 4 := by simp
    rw [hexDigits, reads_get_bind, if_neg hlength, reads_set_bind]
    simp only [List.take_succ_cons, List.take_zero, hvalue c.toNat h]
    rfl
  have hchar : Reads unicodeEscape ('0' :: '0' :: Nat.digitChar (c.toNat / 16) ::
      Nat.digitChar (c.toNat % 16) :: rest) c rest := by
    refine hunit.bind ?_
    rw [if_neg (by omega), if_neg (by omega), Char.ofNat_toNat]
    exact reads_pure c rest
  exact (reads_next 'u' _).bind (hchar.map fun c => [c])

/-- A written character is read back. -/
theorem reads_stringChars_char (c : Char) (h : Reads (stringChars '"' fuel) text later rest) :
    Reads (stringChars '"' (fuel + 1)) (Json.Printer.char c ++ text) (c :: later) rest := by
  unfold Json.Printer.char
  split
  all_goals try exact reads_stringChars_escape rfl h
  split
  · rename_i hcontrol
    exact reads_stringChars_escape (reads_escape_control hcontrol text) h
  · rename_i hquote hslash _ _ _ _ _ hcontrol
    exact reads_stringChars_plain hquote hslash hcontrol h

/-- The written characters are read back up to the closing quote. -/
theorem reads_stringChars_flatMap (chars rest : List Char) (h : chars.length < fuel) :
    Reads (stringChars '"' fuel) (chars.flatMap Json.Printer.char ++ '"' :: rest) chars rest := by
  induction chars generalizing fuel with
  | nil =>
    obtain ⟨fuel, rfl⟩ := Nat.exists_eq_succ_of_ne_zero (Nat.ne_zero_of_lt h)
    rw [stringChars]
    exact (reads_next '"' rest).bind (reads_pure [] rest)
  | cons c later ih =>
    obtain ⟨fuel, rfl⟩ := Nat.exists_eq_succ_of_ne_zero (Nat.ne_zero_of_lt h)
    rw [List.flatMap_cons, List.append_assoc]
    exact reads_stringChars_char c (ih (Nat.lt_of_succ_lt_succ h))

/-- A written string is read back behind its opening quote. -/
theorem reads_stringTail (text : String) (rest : List Char) :
    Reads (stringTail '"') (text.toList.flatMap Json.Printer.char ++ '"' :: rest) text rest := by
  have hlength := Json.Reader.length_le_flatMap_char text.toList
  have hfuel : text.toList.length <
      (text.toList.flatMap Json.Printer.char ++ '"' :: rest).length + 1 := by
    rw [List.length_append]
    omega
  have hread := (reads_stringChars_flatMap text.toList rest hfuel).map String.ofList
  rw [String.ofList_toList] at hread
  rw [stringTail, reads_get_bind]
  exact hread

end Strings

/-! ## Numbers -/

/-- A text that may follow a value in a compact text. -/
def Follows (text : List Char) : Prop :=
  ∀ c ∈ text.head?, c ∈ [',', ']', '\x7d']

/-- A text that follows a value is empty or begins with a comma or a closing bracket. -/
theorem Follows.cases {text : List Char} (h : Follows text) :
    text = [] ∨ ∃ later, text = ',' :: later ∨ text = ']' :: later ∨ text = '\x7d' :: later := by
  cases text with
  | nil => exact .inl rfl
  | cons c later =>
    have hc := h c rfl
    simp only [List.mem_cons, List.not_mem_nil, or_false] at hc
    refine .inr ⟨later, ?_⟩
    rcases hc with rfl | rfl | rfl <;> simp

/-- The digits of a number end where the text goes on without one. -/
theorem reads_digits (n : Nat) {rest : List Char} (h : Follows rest) :
    Reads (takeWhile Char.isDigit) (Nat.toDigits 10 n ++ rest) (Nat.toDigits 10 n) rest := by
  have hall : ∀ c ∈ Nat.toDigits 10 n, c.isDigit = true := fun c hc =>
    Nat.isDigit_of_mem_toDigits (by decide) (by decide) hc
  have hnone : rest.takeWhile Char.isDigit = [] ∧ rest.dropWhile Char.isDigit = rest := by
    rcases h.cases with rfl | ⟨later, rfl | rfl | rfl⟩ <;> exact ⟨rfl, rfl⟩
  have hread : Reads (takeWhile Char.isDigit) (Nat.toDigits 10 n ++ rest)
      ((Nat.toDigits 10 n ++ rest).takeWhile Char.isDigit)
      ((Nat.toDigits 10 n ++ rest).dropWhile Char.isDigit) := rfl
  rwa [List.takeWhile_append_of_pos hall, List.dropWhile_append_of_pos hall, hnone.1, hnone.2,
    List.append_nil] at hread

/-- A written natural number is read as the digits of a whole number. -/
theorem reads_decimal (negative : Bool) (n : Nat) {rest : List Char} (h : Follows rest) :
    Reads (decimal negative) (Nat.toDigits 10 n ++ rest) (whole negative n) rest := by
  have hvalue : whole negative (Nat.ofDigitChars 10 (Nat.toDigits 10 n) 0) = whole negative n := by
    rw [Nat.ofDigitChars_ten_toDigits]
  have hsome : (Nat.toDigits 10 n).isEmpty = false :=
    List.isEmpty_eq_false_iff.2 Nat.toDigits_ne_nil
  rw [decimal]
  refine (reads_digits n h).bind ?_
  split
  · rename_i heq
    exact absurd (Json.Reader.toDigits_eq_zero_cons heq) nofun
  · rw [← hvalue]
    simp only [hsome, Bool.false_and]
    rcases h.cases with rfl | ⟨later, rfl | rfl | rfl⟩ <;> rfl

/-- A written natural number begins with a digit. -/
theorem head_toDigits (n : Nat) :
    ∃ c later, Nat.toDigits 10 n = c :: later ∧ c.isDigit = true := by
  have hne : Nat.toDigits 10 n ≠ [] := Nat.toDigits_ne_nil
  obtain ⟨c, later, hdigits⟩ := List.exists_cons_of_ne_nil hne
  have hmem : c ∈ Nat.toDigits 10 n := hdigits ▸ List.mem_cons_self
  exact ⟨c, later, hdigits, Nat.isDigit_of_mem_toDigits (by decide) (by decide) hmem⟩

/-- A written natural number is a number without a sign. -/
theorem reads_unsignedNumber (negative : Bool) (n : Nat) {rest : List Char} (h : Follows rest) :
    Reads (unsignedNumber negative) (Nat.toDigits 10 n ++ rest) (whole negative n) rest := by
  have hdecimal := reads_decimal negative n h
  obtain ⟨c, later, hdigits, hc⟩ := head_toDigits n
  rw [unsignedNumber, reads_get_bind]
  split
  · rename_i heq
    rw [hdigits] at heq
    obtain ⟨rfl, -⟩ := List.cons.inj heq
    exact absurd hc (by decide)
  · rename_i heq
    rw [hdigits] at heq
    obtain ⟨rfl, -⟩ := List.cons.inj heq
    exact absurd hc (by decide)
  · -- a zero is followed by no mark of another base
    rename_i mark behind heq
    have hmark : ¬ (mark = 'x' ∨ mark = 'X') := by
      rw [hdigits] at heq
      obtain ⟨rfl, hbehind⟩ := List.cons.inj heq
      obtain rfl := Json.Reader.toDigits_eq_zero_cons hdigits
      have hrest : rest = mark :: behind := hbehind
      have hmem := h mark (by rw [hrest]; rfl)
      rintro (rfl | rfl) <;> exact absurd hmem (by decide)
    rw [if_neg hmark]
    exact hdecimal
  · exact hdecimal

/-- A whole number of 64 bits with its sign. -/
theorem whole_natAbs {n : Int} (h : Json.IsInteger n) :
    whole (decide (n < 0)) n.natAbs = .int n := by
  have hsize : UInt64.size = 18446744073709551616 := rfl
  obtain ⟨hlower, hupper⟩ := h
  have hfits : n.natAbs < UInt64.size := by omega
  rw [whole, if_pos hfits, Json.Reader.ofWhole]
  by_cases hnegative : n < 0
  · have hrange : 0 < n.natAbs ∧ n.natAbs ≤ UInt64.size / 2 := by omega
    have heq : -(n.natAbs : Int) = n := by omega
    rw [if_pos (decide_eq_true hnegative), if_pos hrange, heq]
  · have heq : (n.natAbs : Int) = n := by omega
    rw [if_neg (by simpa using hnegative), heq]

/-- A written integer is read back. -/
theorem reads_number {n : Int} (h : Json.IsInteger n) {rest : List Char} (hrest : Follows rest) :
    Reads number (Json.Printer.int n ++ rest) (.int n) rest := by
  have hvalue := whole_natAbs h
  rw [number, reads_get_bind]
  unfold Json.Printer.int
  by_cases hnegative : n < 0
  · rw [decide_eq_true hnegative] at hvalue
    rw [if_pos hnegative, ← hvalue]
    exact reads_unsignedNumber true n.natAbs hrest
  · rw [decide_eq_false hnegative] at hvalue
    obtain ⟨c, later, hdigits, hc⟩ := head_toDigits n.natAbs
    rw [if_neg hnegative, ← hvalue]
    split
    -- a digit is no sign
    · rename_i heq
      rw [hdigits] at heq
      obtain ⟨rfl, -⟩ := List.cons.inj heq
      exact absurd hc (by decide)
    · rename_i heq
      rw [hdigits] at heq
      obtain ⟨rfl, -⟩ := List.cons.inj heq
      exact absurd hc (by decide)
    · exact reads_unsignedNumber false n.natAbs hrest

/-! ## Containers -/

section Containers

open Json (commaSeparated compactMember)

variable {fuel : Nat}

/-- A comma is taken off behind an element, and a closing bracket is left. -/
theorem reads_separator (close : Char) (hclose : close ∈ [']', '\x7d']) (first : List Char)
    (later : List (List Char)) (rest : List Char) :
    ∃ behind, commaSeparated (first :: later) ++ close :: rest = first ++ behind ∧
      Follows behind ∧
      Reads (separator close) behind () (commaSeparated later ++ close :: rest) := by
  have htoken : IsToken close ∧ close ≠ ',' ∧ close ∈ [',', ']', '\x7d'] := by
    simp only [List.mem_cons, List.not_mem_nil, or_false] at hclose
    rcases hclose with rfl | rfl <;> decide
  obtain ⟨htoken, hcomma, hfollows⟩ := htoken
  cases later with
  | nil =>
    refine ⟨close :: rest, by simp [commaSeparated], ?_, ?_⟩
    · rintro c ⟨⟩
      exact hfollows
    · refine (reads_peekToken htoken rest).bind ?_
      rw [if_neg hcomma, if_pos rfl]
      exact reads_pure () _
  | cons second others =>
    refine ⟨',' :: (commaSeparated (second :: others) ++ close :: rest), ?_, ?_, ?_⟩
    · rw [Json.commaSeparated_cons_cons, List.append_assoc, List.cons_append]
    · rintro c ⟨⟩
      exact List.mem_cons_self
    · refine (reads_peekToken (by decide) _).bind ?_
      rw [if_pos rfl]
      exact (reads_next ',' _).bind (reads_pure () _)

/-- Items are read back when each of them is. -/
theorem reads_items {item : Reader Value} {items : List Value}
    (hitems : ∀ found ∈ items, ∀ rest, Follows rest →
      Reads item (compact found ++ rest) found rest)
    (hheads : ∀ found ∈ items, ∃ c later, compact found = c :: later ∧ IsToken c ∧ c ≠ ']')
    (hfuel : items.length < fuel) (rest : List Char) :
    Reads (Json5.items item fuel) (commaSeparated (items.map compact) ++ ']' :: rest) items
      rest := by
  induction items generalizing fuel with
  | nil =>
    obtain ⟨fuel, rfl⟩ := Nat.exists_eq_succ_of_ne_zero (Nat.ne_zero_of_lt hfuel)
    rw [Json5.items]
    refine (reads_peekToken (by decide) rest).bind ?_
    rw [if_pos rfl]
    exact (reads_next ']' rest).bind (reads_pure [] rest)
  | cons first later ih =>
    obtain ⟨fuel, rfl⟩ := Nat.exists_eq_succ_of_ne_zero (Nat.ne_zero_of_lt hfuel)
    obtain ⟨hfirst, hlater⟩ := List.forall_mem_cons.1 hitems
    obtain ⟨⟨c, others, hhead, htoken, hc⟩, hheads⟩ := List.forall_mem_cons.1 hheads
    have hrest := ih hlater hheads (Nat.lt_of_succ_lt_succ hfuel)
    obtain ⟨behind, htext, hfollows, hseparator⟩ := reads_separator ']' (by decide)
      (compact first) (later.map compact) rest
    have hpeek : Reads peekToken (compact first ++ behind) c (compact first ++ behind) := by
      rw [hhead]
      exact reads_peekToken htoken _
    rw [List.map_cons, htext, Json5.items]
    refine hpeek.bind ?_
    rw [if_neg hc]
    exact (hfirst behind hfollows).bind (hseparator.bind (hrest.map (first :: ·)))

/-- A written key is read back. -/
theorem reads_key (text : String) (rest : List Char) :
    Reads key (Json.Printer.string text ++ rest) text rest := by
  rw [Json.Reader.string_append, key]
  refine (reads_peekToken (by decide) _).bind ?_
  rw [if_pos (.inl rfl)]
  exact (reads_next '"' _).bind (reads_stringTail text rest)

/-- Members are read back when each of their values is. -/
theorem reads_members {value : Reader Value} {members : List (String × Value)}
    (hmembers : ∀ member ∈ members, ∀ rest, Follows rest →
      Reads value (compact member.2 ++ rest) member.2 rest)
    (hfuel : members.length < fuel) (start : Object) (rest : List Char) :
    Reads (Json5.members value fuel start)
      (commaSeparated (members.map compactMember) ++ '\x7d' :: rest)
      (members.foldl (fun found member => Entries.put found member.1 member.2) start) rest := by
  induction members generalizing fuel start with
  | nil =>
    obtain ⟨fuel, rfl⟩ := Nat.exists_eq_succ_of_ne_zero (Nat.ne_zero_of_lt hfuel)
    rw [Json5.members]
    refine (reads_peekToken (by decide) rest).bind ?_
    rw [if_pos rfl]
    exact (reads_next '\x7d' rest).bind (reads_pure start rest)
  | cons first later ih =>
    obtain ⟨fuel, rfl⟩ := Nat.exists_eq_succ_of_ne_zero (Nat.ne_zero_of_lt hfuel)
    obtain ⟨hfirst, hlater⟩ := List.forall_mem_cons.1 hmembers
    obtain ⟨name, found⟩ := first
    have hrest := ih hlater (Nat.lt_of_succ_lt_succ hfuel) (start.put name found)
    obtain ⟨behind, htext, hfollows, hseparator⟩ := reads_separator '\x7d' (by decide)
      (compactMember (name, found)) (later.map compactMember) rest
    have hmember : compactMember (name, found) ++ behind =
        Json.Printer.string name ++ ':' :: (compact found ++ behind) := by
      simp [compactMember]
    have hpeek : Reads peekToken (Json.Printer.string name ++ ':' :: (compact found ++ behind)) '"'
        (Json.Printer.string name ++ ':' :: (compact found ++ behind)) :=
      reads_peekToken (by decide) _
    rw [List.map_cons, htext, hmember, Json5.members]
    refine hpeek.bind ?_
    rw [if_neg (by decide)]
    refine (reads_key name _).bind ((reads_peekToken (by decide) _).bind ?_)
    rw [if_neg (by decide)]
    exact (reads_next ':' _).bind ((hfirst behind hfollows).bind (hseparator.bind hrest))

end Containers

/-! ## Values -/

section Values

open Json (commaSeparated compactMember)

variable {fuel : Nat} {rest : List Char}

/-- The first character of a number: a digit, a sign, a point or that of a word. -/
def BeginsNumber (c : Char) : Prop :=
  c.isDigit = true ∨ c ∈ ['+', '-', '.', 'I', 'N']

/-- A number begins with a token that begins no other value and ends none. -/
theorem BeginsNumber.isToken {c : Char} (h : BeginsNumber c) :
    IsToken c ∧ c ∉ ['\x7b', '[', '"', '\'', 'n', 't', 'f', ']'] := by
  rcases h with hdigit | hmem
  · exact Json.Reader.of_isDigit hdigit (by decide)
  · simp only [List.mem_cons, List.not_mem_nil, or_false] at hmem
    rcases hmem with rfl | rfl | rfl | rfl | rfl <;> decide

/-- A word is read as its value. -/
theorem reads_value_word (fuel : Nat) (rest : List Char) :
    Reads (value (fuel + 1)) ("null".toList ++ rest) .null rest ∧
      Reads (value (fuel + 1)) ("true".toList ++ rest) (.bool true) rest ∧
      Reads (value (fuel + 1)) ("false".toList ++ rest) (.bool false) rest := by
  rw [value]
  refine ⟨(reads_peekToken (by decide) _).bind ?_, (reads_peekToken (by decide) _).bind ?_,
    (reads_peekToken (by decide) _).bind ?_⟩
  all_goals exact (reads_word _ rest).bind (reads_pure _ rest)

/-- A string is read back from its written form. -/
theorem reads_value_string (fuel : Nat) (text : String) (rest : List Char) :
    Reads (value (fuel + 1)) (Json.Printer.string text ++ rest) (.string text) rest := by
  rw [value, Json.Reader.string_append]
  refine (reads_peekToken (by decide) _).bind ?_
  exact (reads_next '"' _).bind ((reads_stringTail text rest).map Value.string)

/-- A number is read where one begins. -/
theorem reads_value_number {found : Value} {c : Char} {later : List Char} (hc : BeginsNumber c)
    (h : Reads number (c :: later) found rest) (fuel : Nat) :
    Reads (value (fuel + 1)) (c :: later) found rest := by
  obtain ⟨htoken, hother⟩ := hc.isToken
  rw [value]
  refine (reads_peekToken htoken later).bind ?_
  split
  -- none of the other tokens begins a number
  all_goals first
    | exact absurd hother (by decide)
    | exact h

/-- An integer is read back from its written form. -/
theorem reads_value_int {n : Int} (h : Json.IsInteger n) (fuel : Nat) (hrest : Follows rest) :
    Reads (value (fuel + 1)) (Json.Printer.int n ++ rest) (.int n) rest := by
  have hread := reads_number h hrest
  obtain ⟨c, later, heq, hc⟩ := (Json.numberText_int n).head
  rw [heq] at hread ⊢
  exact reads_value_number (hc.symm.imp_right fun hminus => by simp [hminus]) hread fuel

/-- An array is read by its items. -/
theorem reads_value_array {text : List Char} {items : List Value}
    (h : Reads (Json5.items (value fuel) (text.length + 1)) text items rest) :
    Reads (value (fuel + 1)) ('[' :: text) (.array items) rest := by
  rw [value]
  refine (reads_peekToken (by decide) text).bind ((reads_next '[' text).bind ?_)
  exact reads_get_bind.2 (h.map Value.array)

/-- An object is read by its members. -/
theorem reads_value_object {text : List Char} {members : Object}
    (h : Reads (Json5.members (value fuel) (text.length + 1) []) text members rest) :
    Reads (value (fuel + 1)) ('\x7b' :: text) (.object members) rest := by
  rw [value]
  refine (reads_peekToken (by decide) text).bind ((reads_next '\x7b' text).bind ?_)
  exact reads_get_bind.2 (h.map Value.object)

/-- The first character of a value is a token and ends no array. -/
theorem head_compact {depth : Nat} {found : Value} (h : found.Bounded (fun _ => False) depth) :
    ∃ c later, compact found = c :: later ∧ IsToken c ∧ c ≠ ']' := by
  obtain ⟨c, later, heq, hc⟩ := (Json.isJson_compact h).head
  refine ⟨c, later, heq, ?_⟩
  rcases hc with hmem | hdigit
  · simp only [List.mem_cons, List.not_mem_nil, or_false] at hmem
    rcases hmem with rfl | rfl | rfl | rfl | rfl | rfl | rfl <;> decide
  · exact Json.Reader.of_isDigit hdigit (by decide)

/-- A container is read with enough turns for its elements. -/
theorem length_lt_text {α : Type} (elements : List α) (text : α → List Char) (close : Char)
    (rest : List Char) :
    elements.length < (commaSeparated (elements.map text) ++ close :: rest).length + 1 := by
  have hcount := Json.length_le_length_commaSeparated (elements.map text)
  rw [List.length_map] at hcount
  rw [List.length_append, List.length_cons]
  omega

/-- What is left of a container is shorter than all of it. -/
theorem length_element_lt {elements : List (List Char)} {element : List Char} {opening close : Char}
    (h : element ∈ elements)
    (hfuel : (opening :: (commaSeparated elements ++ [close])).length < fuel + 1) :
    element.length < fuel := by
  have hle := Json.length_le_commaSeparated h
  simp only [List.length_cons, List.length_append] at hfuel
  omega

/-- A value without floats is read back from its compact text. -/
theorem reads_value {depth : Nat} {found : Value} (h : found.Bounded (fun _ => False) depth)
    (hfuel : (compact found).length < fuel) (hrest : Follows rest) :
    Reads (value fuel) (compact found ++ rest) found rest := by
  induction fuel generalizing depth found rest with
  | zero => exact absurd hfuel (Nat.not_lt_zero _)
  | succ fuel ih =>
    cases depth with
    | zero => exact absurd h id
    | succ depth =>
      cases found with
      | null => exact (reads_value_word fuel rest).1
      | bool value =>
        cases value with
        | true => exact (reads_value_word fuel rest).2.1
        | false => exact (reads_value_word fuel rest).2.2
      | int n => exact reads_value_int h fuel hrest
      | float x => exact absurd h id
      | string text => exact reads_value_string fuel text rest
      | array items =>
        obtain ⟨-, hitems⟩ := h
        rw [Json.compact_array] at hfuel ⊢
        rw [List.cons_append, List.append_assoc]
        refine reads_value_array (reads_items (fun item hitem rest hrest => ?_)
          (fun item hitem => head_compact (hitems item hitem))
          (length_lt_text items compact ']' rest) rest)
        exact ih (hitems item hitem) (length_element_lt (List.mem_map_of_mem hitem) hfuel) hrest
      | object members =>
        obtain ⟨-, hsorted, hmembers⟩ := h
        rw [Json.compact_object] at hfuel ⊢
        rw [List.cons_append, List.append_assoc]
        have hread : ∀ member ∈ members, ∀ rest, Follows rest →
            Reads (value fuel) (compact member.2 ++ rest) member.2 rest := by
          intro member hmember rest hrest
          have hlt := length_element_lt (List.mem_map_of_mem hmember) hfuel
          simp only [compactMember, List.length_append, List.length_cons] at hlt
          exact ih (hmembers member hmember) (by omega) hrest
        have hobject := reads_members hread (length_lt_text members compactMember '\x7d' rest)
          [] rest
        have hsame : members.foldl (fun found member => Entries.put found member.1 member.2) [] =
            members := Entries.Sorted.ofPairs_eq hsorted
        rw [hsame] at hobject
        exact reads_value_object hobject

end Values

/-- The compact text of a value without floats denotes that value. -/
theorem read_compact {depth : Nat} {found : Value} (h : found.Bounded (fun _ => False) depth) :
    read? (String.ofList (compact found)) = some found := by
  have hread : Reads (value ((compact found).length + 1)) (compact found ++ []) found [] :=
    reads_value h (Nat.lt_succ_self _) nofun
  rw [List.append_nil, Reads] at hread
  rw [read?, String.length_ofList, String.toList_ofList, hread]
  rfl

end EditorFormat.Json5
