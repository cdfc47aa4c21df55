import EditorFormat.Json.Printer
import EditorFormat.Proofs.Json.Numbers

/-!
# Reading values step by step

What a reader of strings, arrays, objects and values does with the next character or token, as one
law for each case. A value is read in the same way behind blanks.
-/

namespace EditorFormat.Json

namespace Reader

/-! ## Strings -/

section Strings

variable {fuel : Nat} {text middle rest : List Char} {c : Char} {later : List Char}

theorem reads_stringChars_escape (h : Reads escape text c middle)
    (hlater : Reads (stringChars fuel) middle later rest) :
    Reads (stringChars (fuel + 1)) ('\\' :: text) (c :: later) rest := by
  rw [stringChars]
  refine reads_bind.2 ⟨'\\', text, reads_next.2 rfl, ?_⟩
  exact reads_bind.2 ⟨c, middle, h, reads_map.2 ⟨later, hlater, rfl⟩⟩

theorem reads_stringChars_plain (hquote : c ≠ '"') (hslash : c ≠ '\\') (hcontrol : ¬ c.toNat < 0x20)
    (hlater : Reads (stringChars fuel) text later rest) :
    Reads (stringChars (fuel + 1)) (c :: text) (c :: later) rest := by
  rw [stringChars]
  refine reads_bind.2 ⟨c, text, reads_next.2 rfl, ?_⟩
  split
  · exact absurd rfl hquote
  · exact absurd rfl hslash
  · rw [if_neg hcontrol]
    exact reads_map.2 ⟨later, hlater, rfl⟩

/-- A control character is escaped as two hexadecimal digits behind two zeros. -/
theorem reads_escape_control (h : c.toNat < 0x20) (rest : List Char) :
    Reads escape ('u' :: '0' :: '0' :: Nat.digitChar (c.toNat / 16) ::
      Nat.digitChar (c.toNat % 16) :: rest) c rest := by
  have hvalue : ∀ n < 0x20,
      hexValue? ['0', '0', Nat.digitChar (n / 16), Nat.digitChar (n % 16)] = some n := by decide
  have hunit : Reads hexUnit ('0' :: '0' :: Nat.digitChar (c.toNat / 16) ::
      Nat.digitChar (c.toNat % 16) :: rest) c.toNat rest := by
    rw [hexUnit, reads_get_bind]
    simp only [hvalue c.toNat h]
    rfl
  refine reads_bind.2 ⟨'u', _, reads_next.2 rfl, reads_bind.2 ⟨c.toNat, rest, hunit, ?_⟩⟩
  rw [if_neg (by omega), if_neg (by omega)]
  exact reads_pure.2 ⟨(Char.ofNat_toNat c).symm, rfl⟩

/-- A written character is read back. -/
theorem reads_stringChars_char (c : Char) (h : Reads (stringChars fuel) text later rest) :
    Reads (stringChars (fuel + 1)) (Printer.char c ++ text) (c :: later) rest := by
  unfold Printer.char
  split
  all_goals try exact reads_stringChars_escape rfl h
  split
  · rename_i hcontrol
    exact reads_stringChars_escape (reads_escape_control hcontrol text) h
  · rename_i hquote hslash _ _ _ _ _ hcontrol
    exact reads_stringChars_plain hquote hslash hcontrol h

/-- The written characters are read back up to the closing quote. -/
theorem reads_stringChars_flatMap (chars rest : List Char) (h : chars.length < fuel) :
    Reads (stringChars fuel) (chars.flatMap Printer.char ++ '"' :: rest) chars rest := by
  induction chars generalizing fuel with
  | nil =>
    obtain ⟨fuel, rfl⟩ := Nat.exists_eq_succ_of_ne_zero (Nat.ne_zero_of_lt h)
    rw [stringChars]
    exact reads_bind.2 ⟨'"', rest, reads_next.2 rfl, reads_pure.2 ⟨rfl, rfl⟩⟩
  | cons c later ih =>
    obtain ⟨fuel, rfl⟩ := Nat.exists_eq_succ_of_ne_zero (Nat.ne_zero_of_lt h)
    rw [List.flatMap_cons, List.append_assoc]
    exact reads_stringChars_char c (ih (Nat.lt_of_succ_lt_succ h))

/-- Every character is written as one character at least. -/
theorem length_le_flatMap_char (chars : List Char) :
    chars.length ≤ (chars.flatMap Printer.char).length := by
  induction chars with
  | nil => exact Nat.le_refl 0
  | cons c later ih =>
    have hpos : 0 < (Printer.char c).length := by
      unfold Printer.char
      split <;> first | decide | skip
      split <;> simp
    rw [List.flatMap_cons, List.length_append, List.length_cons]
    omega

/-- A written string begins with its opening quote. -/
theorem string_append (text : String) (rest : List Char) :
    Printer.string text ++ rest = '"' :: (text.toList.flatMap Printer.char ++ '"' :: rest) := by
  simp [Printer.string]

/-- A written string is read back behind its opening quote. -/
theorem reads_stringTail (text : String) (rest : List Char) :
    Reads stringTail (text.toList.flatMap Printer.char ++ '"' :: rest) text rest := by
  have hlength := length_le_flatMap_char text.toList
  have hfuel : text.toList.length <
      (text.toList.flatMap Printer.char ++ '"' :: rest).length + 1 := by
    rw [List.length_append]
    omega
  rw [stringTail, reads_get_bind]
  exact reads_map.2 ⟨_, reads_stringChars_flatMap _ rest hfuel, String.ofList_toList.symm⟩

end Strings

/-! ## Containers -/

/-- A colon is passed over. -/
theorem reads_colon (text : List Char) : Reads colon (':' :: text) () text :=
  (reads_peekToken_cons rfl text).bind_iff.2 (reads_advance.2 rfl)

section Containers

variable {α κ σ : Type} {fuel : Nat} {text between later middle rest : List Char}

theorem reads_items_nil {item : Reader α} {isFirst : Bool}
    (h : text.dropWhile isBlank = ']' :: rest) :
    Reads (items item (fuel + 1) isFirst) text [] rest := by
  rw [items]
  refine reads_bind.2 ⟨']', _, reads_peekToken.2 ⟨rest, h, rfl⟩, ?_⟩
  exact reads_advance_bind.2 (reads_pure.2 ⟨rfl, rfl⟩)

variable {item : Reader α} {value : α} {values : List α} {c : Char}

theorem reads_items_first (hhead : text.dropWhile isBlank = c :: later) (hc : c ≠ ']')
    (hitem : Reads item (c :: later) value middle)
    (hrest : Reads (items item fuel false) middle values rest) :
    Reads (items item (fuel + 1) true) text (value :: values) rest := by
  rw [items]
  refine reads_bind.2 ⟨c, _, reads_peekToken.2 ⟨later, hhead, rfl⟩, ?_⟩
  split
  · exact absurd rfl hc
  · exact reads_bind.2 ⟨value, middle, hitem, reads_map.2 ⟨values, hrest, rfl⟩⟩

theorem reads_items_next (hcomma : text.dropWhile isBlank = ',' :: between)
    (hhead : between.dropWhile isBlank = c :: later) (hc : c ≠ ']')
    (hitem : Reads item (c :: later) value middle)
    (hrest : Reads (items item fuel false) middle values rest) :
    Reads (items item (fuel + 1) false) text (value :: values) rest := by
  rw [items]
  refine reads_bind.2 ⟨',', _, reads_peekToken.2 ⟨between, hcomma, rfl⟩, ?_⟩
  refine reads_advance_bind.2 (reads_bind.2 ⟨c, _, reads_peekToken.2 ⟨later, hhead, rfl⟩, ?_⟩)
  rw [if_neg hc]
  exact reads_bind.2 ⟨value, middle, hitem, reads_map.2 ⟨values, hrest, rfl⟩⟩

variable {key : Reader κ} {step : σ → κ → Reader σ} {name : κ} {state next last : σ}
  {behind : List Char}

theorem reads_foldMembers_nil {isFirst : Bool} (h : text.dropWhile isBlank = '\x7d' :: rest) :
    Reads (foldMembersBy key step (fuel + 1) isFirst state) text state rest := by
  rw [foldMembersBy]
  refine reads_bind.2 ⟨'\x7d', _, reads_peekToken.2 ⟨rest, h, rfl⟩, ?_⟩
  exact reads_advance_bind.2 (reads_pure.2 ⟨rfl, rfl⟩)

theorem reads_foldMembers_first (hquote : text.dropWhile isBlank = '"' :: later)
    (hkey : Reads key later name middle) (hstep : Reads (step state name) middle next behind)
    (hrest : Reads (foldMembersBy key step fuel false next) behind last rest) :
    Reads (foldMembersBy key step (fuel + 1) true state) text last rest := by
  rw [foldMembersBy]
  refine reads_bind.2 ⟨'"', _, reads_peekToken.2 ⟨later, hquote, rfl⟩, ?_⟩
  refine reads_bind.2 ⟨'"', _, reads_peekToken.2 ⟨later, rfl, rfl⟩, ?_⟩
  rw [if_pos rfl]
  refine reads_advance_bind.2 (reads_bind.2 ⟨name, middle, hkey, ?_⟩)
  exact reads_bind.2 ⟨next, behind, hstep, hrest⟩

theorem reads_foldMembers_next (hcomma : text.dropWhile isBlank = ',' :: between)
    (hquote : between.dropWhile isBlank = '"' :: later)
    (hkey : Reads key later name middle) (hstep : Reads (step state name) middle next behind)
    (hrest : Reads (foldMembersBy key step fuel false next) behind last rest) :
    Reads (foldMembersBy key step (fuel + 1) false state) text last rest := by
  rw [foldMembersBy]
  refine reads_bind.2 ⟨',', _, reads_peekToken.2 ⟨between, hcomma, rfl⟩, ?_⟩
  refine reads_advance_bind.2 (reads_bind.2 ⟨'"', _, reads_peekToken.2 ⟨later, hquote, rfl⟩, ?_⟩)
  rw [if_pos rfl]
  refine reads_advance_bind.2 (reads_bind.2 ⟨name, middle, hkey, ?_⟩)
  exact reads_bind.2 ⟨next, behind, hstep, hrest⟩

end Containers

end Reader

end EditorFormat.Json
