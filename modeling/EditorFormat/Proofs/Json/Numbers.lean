import EditorFormat.Json.Printer
import EditorFormat.Proofs.Json.Reads

/-!
# Reading numbers

A number ends where the text cannot go on as one, so what is behind it does not matter (`Local`).
The written form of an integer is read back (`reads_int`); whether that of a float is read back
depends on the float, since it is read by a rule that rounds more than once (`ReadsBack`).
-/

namespace EditorFormat.Json

namespace Reader

variable {α β : Type}

/-- A text that no number can go on with. -/
def Terminated (text : List Char) : Prop :=
  ∀ c ∈ text.head?, c.isDigit = false ∧ c ∉ ['.', 'e', 'E', '+', '-']

/-- A reader reads the same whatever comes behind it, if no number can go on there. -/
def Local (reader : Reader α) : Prop :=
  ∀ text value rest, Reads reader text value rest →
    ∀ after, Terminated after → Reads reader (text ++ after) value (rest ++ after)

theorem local_pure (value : α) : Local (pure value) := by
  intro text found rest h after _
  obtain ⟨rfl, rfl⟩ := reads_pure.1 h
  exact reads_pure.2 ⟨rfl, rfl⟩

theorem local_throw (error : ReadError) : Local (throw error : Reader α) :=
  fun _ _ _ h => absurd h not_reads_throw

theorem Local.bind {reader : Reader α} {next : α → Reader β} (h : Local reader)
    (hnext : ∀ value, Local (next value)) : Local (reader >>= next) := by
  intro text value rest hread after hafter
  obtain ⟨first, middle, hfirst, hrest⟩ := reads_bind.1 hread
  exact reads_bind.2 ⟨first, middle ++ after, h _ _ _ hfirst after hafter,
    hnext first _ _ _ hrest after hafter⟩

theorem Local.map {reader : Reader α} (h : Local reader) (change : α → β) :
    Local (change <$> reader) := by
  rw [← bind_pure_comp]
  exact h.bind fun _ => local_pure _

/-- Digits end where the text is terminated. -/
theorem takeWhile_digits_append {after : List Char} (h : Terminated after) (text : List Char) :
    (text ++ after).takeWhile Char.isDigit = text.takeWhile Char.isDigit ∧
      (text ++ after).dropWhile Char.isDigit = text.dropWhile Char.isDigit ++ after := by
  induction text with
  | nil =>
    cases after with
    | nil => exact ⟨rfl, rfl⟩
    | cons c later =>
      have hc := (h c rfl).1
      simp [hc]
  | cons c rest ih => cases hc : c.isDigit <;> simp [hc, ih]

theorem local_digits : Local digits := by
  intro text found rest h after hafter
  obtain ⟨rfl, rfl⟩ := reads_digits.1 h
  obtain ⟨htake, hdrop⟩ := takeWhile_digits_append hafter text
  exact reads_digits.2 ⟨htake.symm, hdrop.symm⟩

/-- There is a digit where digits are needed. -/
theorem reads_someDigits {text found rest : List Char} :
    Reads someDigits text found rest ↔ Reads digits text found rest ∧ found ≠ [] := by
  rw [someDigits, reads_bind]
  refine ⟨?_, ?_⟩
  · rintro ⟨first, middle, hdigits, h⟩
    cases first with
    | nil =>
      rw [reads_get_bind] at h
      split at h <;> exact absurd h not_reads_throw
    | cons c later =>
      obtain ⟨rfl, rfl⟩ := reads_pure.1 h
      exact ⟨hdigits, nofun⟩
  · rintro ⟨hdigits, hne⟩
    obtain ⟨c, later, rfl⟩ := List.exists_cons_of_ne_nil hne
    exact ⟨_, _, hdigits, reads_pure.2 ⟨rfl, rfl⟩⟩

theorem local_someDigits : Local someDigits := by
  intro text found rest h after hafter
  obtain ⟨hdigits, hne⟩ := reads_someDigits.1 h
  exact reads_someDigits.2 ⟨local_digits _ _ _ hdigits after hafter, hne⟩

/-- A mark is taken off when it comes next. -/
theorem reads_oneOf_mark {marks : List Char} {mark : Char} (h : mark ∈ marks) (rest : List Char) :
    Reads (oneOf marks) (mark :: rest) (some mark) rest := by
  rw [oneOf, reads_get_bind]
  simp only [if_pos h]
  rfl

/-- Nothing is taken off when no mark comes next. -/
theorem reads_oneOf_none {marks text : List Char} (h : ∀ c ∈ text.head?, c ∉ marks) :
    Reads (oneOf marks) text none text := by
  rw [oneOf, reads_get_bind]
  cases text with
  | nil => exact reads_pure.2 ⟨rfl, rfl⟩
  | cons c later =>
    simp only [if_neg (h c rfl)]
    exact reads_pure.2 ⟨rfl, rfl⟩

/-- Either a mark is taken off or none comes next. -/
theorem reads_oneOf_cases {marks text rest : List Char} {found : Option Char}
    (h : Reads (oneOf marks) text found rest) :
    (∃ mark ∈ marks, found = some mark ∧ text = mark :: rest) ∨
      found = none ∧ rest = text ∧ ∀ c ∈ text.head?, c ∉ marks := by
  by_cases hmark : ∃ mark later, text = mark :: later ∧ mark ∈ marks
  · obtain ⟨mark, later, rfl, hmem⟩ := hmark
    have heq := h.symm.trans (reads_oneOf_mark hmem later)
    cases heq
    exact .inl ⟨mark, hmem, rfl, rfl⟩
  · have hnone : ∀ c ∈ text.head?, c ∉ marks := by
      intro c hc hmem
      obtain ⟨later, rfl⟩ := List.head?_eq_some_iff.1 hc
      exact hmark ⟨c, later, rfl, hmem⟩
    have heq := h.symm.trans (reads_oneOf_none hnone)
    cases heq
    exact .inr ⟨rfl, rfl, hnone⟩

/-- Marks of a number are looked for within it. -/
theorem local_oneOf {marks : List Char} (hmarks : ∀ mark ∈ marks, mark ∈ ['.', 'e', 'E', '+', '-']) :
    Local (oneOf marks) := by
  intro text found rest h after hafter
  rcases reads_oneOf_cases h with ⟨mark, hmem, rfl, rfl⟩ | ⟨rfl, rfl, hnone⟩
  · exact reads_oneOf_mark hmem _
  · refine reads_oneOf_none fun c hc => ?_
    cases rest with
    | nil => exact fun hmem => (hafter c hc).2 (hmarks c hmem)
    | cons first later => exact hnone c hc

theorem local_exponent : Local exponent :=
  (local_oneOf (by simp)).bind fun _ => local_someDigits.bind fun _ => local_pure _

theorem local_wholePart : Local wholePart := by
  refine local_someDigits.bind fun found => ?_
  split
  · exact local_throw _
  · exact local_pure _

theorem local_fraction : Local fraction := by
  refine (local_oneOf (by simp)).bind fun found => ?_
  cases found with
  | none => exact local_pure _
  | some _ => exact local_someDigits.map _

theorem local_power : Local power := by
  refine (local_oneOf (by simp)).bind fun found => ?_
  cases found with
  | none => exact local_pure _
  | some _ => exact local_exponent.map _

theorem local_unsignedNumber (negative : Bool) : Local (unsignedNumber negative) := by
  refine local_wholePart.bind fun whole => local_fraction.bind fun fraction =>
    local_power.bind fun power => ?_
  cases ofParts negative whole fraction power with
  | none => exact local_throw _
  | some value => exact local_pure value

/-- What is behind a number does not matter. -/
theorem local_number : Local number :=
  (local_oneOf (by simp)).bind fun _ => local_unsignedNumber _

/-! ## What a number is -/

/-- A significand fits a word. -/
theorem absorb_le {significand : Nat} (h : significand ≤ largestSignificand) (digits : List Char) :
    (absorb significand digits).1 ≤ largestSignificand := by
  induction digits generalizing significand with
  | nil => exact h
  | cons c rest ih =>
    simp only [absorb]
    split
    · exact h
    · rename_i hlonger
      exact ih (Nat.le_of_not_lt hlonger)

/-- A value that a number literal can have: an integer of 64 bits or a float. -/
inductive IsNumber : Value → Prop where
  | int {n : Int} (h : IsInteger n) : IsNumber (.int n)
  | float (x : Float) : IsNumber (.float x)

/-- A whole literal whose digits fit a word is a number. -/
theorem isNumber_ofWhole (negative : Bool) {significand : Nat}
    (h : significand ≤ largestSignificand) : IsNumber (ofWhole negative significand) := by
  have hsize : UInt64.size = 18446744073709551616 := rfl
  rw [largestSignificand] at h
  unfold ofWhole
  split
  · split
    · refine .int ⟨?_, ?_⟩ <;> omega
    · exact .float _
  · refine .int ⟨?_, ?_⟩ <;> omega

/-- A literal is a number. -/
theorem isNumber_ofParts {negative : Bool} {whole : List Char} {fraction : Option (List Char)}
    {power : Option Int} {value : Value} (h : ofParts negative whole fraction power = some value) :
    IsNumber value := by
  simp only [ofParts] at h
  split at h
  · exact Option.some.inj h ▸ isNumber_ofWhole negative (absorb_le (Nat.zero_le _) whole)
  · obtain ⟨magnitude, -, rfl⟩ := Option.map_eq_some_iff.1 h
    exact .float _

/-- What is read as a number is one. -/
theorem isNumber_of_reads {text rest : List Char} {value : Value}
    (h : Reads number text value rest) : IsNumber value := by
  obtain ⟨sign, _, -, hunsigned⟩ := reads_bind.1 h
  obtain ⟨whole, _, -, hwhole⟩ := reads_bind.1 hunsigned
  obtain ⟨fraction, _, -, hfraction⟩ := reads_bind.1 hwhole
  obtain ⟨power, _, -, hparts⟩ := reads_bind.1 hfraction
  cases hvalue : ofParts sign.isSome whole fraction power with
  | none => rw [hvalue] at hparts; exact absurd hparts not_reads_throw
  | some found =>
    rw [hvalue] at hparts
    obtain ⟨rfl, -⟩ := reads_pure.1 hparts
    exact isNumber_ofParts hvalue

/-- A number begins with a minus or a digit. -/
theorem head_of_reads_number {text rest : List Char} {value : Value}
    (h : Reads number text value rest) :
    ∃ c later, text = c :: later ∧ (c = '-' ∨ c.isDigit) := by
  obtain ⟨sign, middle, hsign, hunsigned⟩ := reads_bind.1 h
  rcases reads_oneOf_cases hsign with ⟨mark, hmem, -, rfl⟩ | ⟨-, rfl, -⟩
  · exact ⟨mark, middle, rfl, .inl (List.mem_singleton.1 hmem)⟩
  · obtain ⟨whole, _, hwhole, -⟩ := reads_bind.1 hunsigned
    obtain ⟨found, _, hdigits, -⟩ := reads_bind.1 hwhole
    obtain ⟨hdigits, hne⟩ := reads_someDigits.1 hdigits
    obtain ⟨rfl, -⟩ := reads_digits.1 hdigits
    cases middle with
    | nil => exact absurd rfl hne
    | cons c later =>
      refine ⟨c, later, rfl, .inr ?_⟩
      cases hc : c.isDigit with
      | true => rfl
      | false => exact absurd (List.takeWhile_cons_of_neg (by simp [hc])) hne

/-- What is true of the ten digits is true of every digit. -/
@[elab_as_elim]
theorem of_isDigit {motive : Char → Prop} {c : Char} (hc : c.isDigit = true)
    (h : ∀ n < 10, motive (Char.ofNat (48 + n))) : motive c := by
  have hbounds : 48 ≤ c.toNat ∧ c.toNat ≤ 57 := Char.isDigit_iff_toNat.1 hc
  have hdigit := h (c.toNat - 48) (by omega)
  rwa [Nat.add_sub_cancel' hbounds.1, Char.ofNat_toNat] at hdigit

/-- What begins a number is no blank. -/
theorem isBlank_of_number_head {c : Char} (h : c = '-' ∨ c.isDigit) : isBlank c = false := by
  rcases h with rfl | hdigit
  · rfl
  · exact of_isDigit hdigit (by decide)

/-! ## Written numbers -/

/-- Digits only make a number larger. -/
theorem le_ofDigitChars (digits : List Char) (n : Nat) : n ≤ Nat.ofDigitChars 10 digits n := by
  induction digits generalizing n with
  | nil => exact Nat.le_refl n
  | cons c rest ih =>
    rw [Nat.ofDigitChars_cons]
    exact Nat.le_trans (by omega) (ih _)

/-- Digits of a number that fits a word are all kept. -/
theorem absorb_eq {digits : List Char} {n : Nat}
    (h : Nat.ofDigitChars 10 digits n ≤ largestSignificand) :
    absorb n digits = (Nat.ofDigitChars 10 digits n, digits.length) := by
  induction digits generalizing n with
  | nil => rfl
  | cons c rest ih =>
    rw [Nat.ofDigitChars_cons, Nat.mul_comm] at h
    have hfits := Nat.le_trans (le_ofDigitChars rest _) h
    rw [absorb, if_neg (Nat.not_lt_of_le hfits), ih h, Nat.ofDigitChars_cons, Nat.mul_comm]
    rfl

/-- Only zero is written with a zero at the front. -/
theorem toDigits_eq_zero_cons {n : Nat} {later : List Char} (h : Nat.toDigits 10 n = '0' :: later) :
    later = [] := by
  induction n using Nat.strongRecOn generalizing later with
  | ind n ih =>
    by_cases hlt : n < 10
    · rw [Nat.toDigits_of_lt_base hlt] at h
      exact (List.cons.inj h).2.symm
    · rw [Nat.toDigits_of_base_le (by decide) (Nat.le_of_not_lt hlt)] at h
      cases hshorter : Nat.toDigits 10 (n / 10) with
      | nil => exact absurd hshorter Nat.toDigits_ne_nil
      | cons c rest =>
        rw [hshorter] at h
        obtain ⟨rfl, -⟩ := List.cons.inj h
        -- The shorter number would be zero, so the number would have one digit.
        obtain rfl := ih (n / 10) (by omega) hshorter
        have hvalue : Nat.ofDigitChars 10 (Nat.toDigits 10 (n / 10)) 0 = n / 10 :=
          Nat.ofDigitChars_ten_toDigits
        rw [hshorter] at hvalue
        have hzero : n / 10 = 0 := hvalue.symm
        omega

/-- A written natural number is read as the digits of a literal without a fraction or exponent. -/
theorem reads_toDigits (negative : Bool) {n : Nat} (h : n ≤ largestSignificand) :
    Reads (unsignedNumber negative) (Nat.toDigits 10 n) (ofWhole negative n) [] := by
  have hall : ∀ c ∈ Nat.toDigits 10 n, c.isDigit = true := fun c hc =>
    Nat.isDigit_of_mem_toDigits (by decide) (by decide) hc
  have hdigits : Reads digits (Nat.toDigits 10 n ++ []) (Nat.toDigits 10 n) [] := by
    rw [reads_digits, List.takeWhile_append_of_pos hall, List.dropWhile_append_of_pos hall]
    exact ⟨(List.append_nil _).symm, rfl⟩
  rw [List.append_nil] at hdigits
  have hwhole : Reads wholePart (Nat.toDigits 10 n) (Nat.toDigits 10 n) [] := by
    refine reads_bind.2 ⟨_, _, reads_someDigits.2 ⟨hdigits, Nat.toDigits_ne_nil⟩, ?_⟩
    split
    · rename_i heq
      exact absurd (toDigits_eq_zero_cons heq) nofun
    · exact reads_pure.2 ⟨rfl, rfl⟩
  have habsorb : absorb 0 (Nat.toDigits 10 n) = (n, (Nat.toDigits 10 n).length) := by
    rw [absorb_eq (by rwa [Nat.ofDigitChars_ten_toDigits]), Nat.ofDigitChars_ten_toDigits]
  have hparts : ofParts negative (Nat.toDigits 10 n) none none = some (ofWhole negative n) := by
    simp [ofParts, habsorb]
  refine reads_bind.2 ⟨_, _, hwhole, reads_bind.2 ⟨none, [], rfl, reads_bind.2 ⟨none, [], rfl, ?_⟩⟩⟩
  rw [hparts]
  exact reads_pure.2 ⟨rfl, rfl⟩

/-- A written integer is read back. -/
theorem reads_int {n : Int} (h : IsInteger n) : Reads number (Printer.int n) (.int n) [] := by
  have hsize : UInt64.size = 18446744073709551616 := rfl
  obtain ⟨hlower, hupper⟩ := h
  have hfits : n.natAbs ≤ largestSignificand := by
    rw [largestSignificand]
    omega
  unfold Printer.int
  split
  · rename_i hnegative
    have hvalue : ofWhole true n.natAbs = .int n := by
      have hrange : 0 < n.natAbs ∧ n.natAbs ≤ UInt64.size / 2 := by omega
      have heq : -(n.natAbs : Int) = n := by omega
      rw [ofWhole, if_pos rfl, if_pos hrange, heq]
    refine reads_bind.2 ⟨some '-', _, reads_oneOf_mark (List.mem_singleton.2 rfl) _, ?_⟩
    exact hvalue ▸ reads_toDigits true hfits
  · rename_i hnonneg
    have hvalue : ofWhole false n.natAbs = .int n := by
      have heq : (n.natAbs : Int) = n := by omega
      rw [ofWhole, if_neg (by decide), heq]
    refine reads_bind.2 ⟨none, _, reads_oneOf_none fun c hc hmem => ?_, ?_⟩
    · have hdigit := Nat.isDigit_of_mem_toDigits (by decide) (by decide) (List.mem_of_head? hc)
      rw [List.mem_singleton.1 hmem] at hdigit
      exact absurd hdigit (by decide)
    · exact hvalue ▸ reads_toDigits false hfits

/-- A float that is read back from its written form. -/
def ReadsBack (x : Float) : Prop :=
  Reads number (Printer.float x) (.float x) []

end Reader

end EditorFormat.Json
