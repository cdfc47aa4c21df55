import EditorFormat.Proofs.Json5.Tokens

/-!
# Reading numbers of JSON5

What the grammar says of a number is what the reader finds in it: an exponent behind a fraction
behind digits behind a sign, each of which may be missing.
-/

namespace EditorFormat.Json5

open Json (Value Digits)
open Json.Reader (hexDigit? hexValue?)

/-! ## Digits -/

/-- The characters with a property are taken up to the first one without it. -/
theorem reads_takeWhile {p : Char → Bool} {taken rest : List Char} (h : ∀ c ∈ taken, p c = true)
    (hrest : ∀ c ∈ rest.head?, p c = false) :
    Reads (takeWhile p) (taken ++ rest) taken rest := by
  have hnone : rest.takeWhile p = [] ∧ rest.dropWhile p = rest := by
    cases rest with
    | nil => exact ⟨rfl, rfl⟩
    | cons c later => simp [hrest c rfl]
  have hread : Reads (takeWhile p) (taken ++ rest) ((taken ++ rest).takeWhile p)
      ((taken ++ rest).dropWhile p) := rfl
  rwa [List.takeWhile_append_of_pos h, List.dropWhile_append_of_pos h, hnone.1, hnone.2,
    List.append_nil] at hread

/-- A hexadecimal digit may stand within an identifier. -/
theorem isIdentifierPart_of_hexDigit {c : Char} (h : (hexDigit? c).isSome = true) :
    isIdentifierPart c = true := by
  have hbound : c.toNat < 103 := by
    unfold hexDigit? at h
    split at h
    · rename_i hdigit
      have hbounds : 48 ≤ c.toNat ∧ c.toNat ≤ 57 := Char.isDigit_iff_toNat.1 hdigit
      omega
    · split at h
      · rename_i hlower
        exact Nat.lt_of_le_of_lt (UInt32.le_iff_toNat_le.1 hlower.2) (by decide)
      · split at h
        · rename_i hupper
          exact Nat.lt_of_le_of_lt (UInt32.le_iff_toNat_le.1 hupper.2) (by decide)
        · cases h
  refine isIdentifierPart_of_ascii ⟨by omega, ?_⟩
  revert h
  exact Text.of_toNat_lt hbound (by decide +kernel)

/-- Digits with a value are hexadecimal. -/
theorem hexDigit_of_foldlM {digits : List Char} {start value : Nat}
    (h : digits.foldlM (fun value c => (hexDigit? c).map (value * 16 + ·)) start = some value) :
    ∀ c ∈ digits, (hexDigit? c).isSome = true := by
  induction digits generalizing start with
  | nil => exact List.forall_mem_nil _
  | cons c later ih =>
    rw [List.foldlM_cons] at h
    obtain ⟨longer, hlonger, hlater⟩ := Option.bind_eq_some_iff.1 h
    obtain ⟨digit, hdigit, -⟩ := Option.map_eq_some_iff.1 hlonger
    exact List.forall_mem_cons.2 ⟨by rw [hdigit]; rfl, ih hlater⟩

/-- Where a token ends, there is no digit of either base. -/
theorem EndsToken.digit {text : List Char} (h : EndsToken text) {c : Char} (hc : c ∈ text.head?) :
    c.isDigit = false ∧ (hexDigit? c).isSome = false := by
  obtain ⟨hpart, -⟩ := h.head hc
  have hhex : ¬ (hexDigit? c).isSome = true := fun hdigit =>
    ne_of_isIdentifierPart (isIdentifierPart_of_hexDigit hdigit) hpart rfl
  refine ⟨Bool.eq_false_iff.2 fun hdigit => hhex ?_, Bool.eq_false_iff.2 hhex⟩
  rw [hexDigit?, if_pos hdigit]
  rfl

/-- A digit is none of the marks within a number. -/
theorem ne_of_isDigit {c : Char} (h : c.isDigit = true) :
    c ≠ '.' ∧ c ≠ '+' ∧ c ≠ '-' ∧ c ≠ 'I' ∧ c ≠ 'N' ∧ c ≠ 'x' ∧ c ≠ 'X' :=
  Json.Reader.of_isDigit h (by decide)

/-! ## Fractions and exponents -/

/-- The sign of an exponent is taken off, and its digits are left. -/
theorem reads_exponentSign {sign digits : List Char} {negative : Bool}
    (hsign : (sign = [] ∨ sign = ['+']) ∧ negative = false ∨ sign = ['-'] ∧ negative = true)
    (h : Digits digits) (rest : List Char) :
    Reads exponentSign (sign ++ (digits ++ rest)) negative (digits ++ rest) := by
  rw [exponentSign, reads_get_bind]
  rcases hsign with ⟨rfl | rfl, rfl⟩ | ⟨rfl, rfl⟩
  · -- the first digit is no sign
    obtain ⟨hne, hdigits⟩ := h
    obtain ⟨c, later, rfl⟩ := List.exists_cons_of_ne_nil hne
    obtain ⟨-, hplus, hminus, -⟩ := ne_of_isDigit (hdigits c List.mem_cons_self)
    rw [List.nil_append, List.cons_append]
    split
    · rename_i heq
      exact absurd (List.cons.inj heq).1 hplus
    · rename_i heq
      exact absurd (List.cons.inj heq).1 hminus
    · exact reads_pure _ _
  · exact reads_pure _ _
  · exact reads_pure _ _

/-- An exponent is read behind its mark. -/
theorem reads_exponent {sign digits : List Char} {negative : Bool}
    (hsign : (sign = [] ∨ sign = ['+']) ∧ negative = false ∨ sign = ['-'] ∧ negative = true)
    (h : Digits digits) {rest : List Char} (hrest : EndsToken rest) :
    Reads exponent (sign ++ (digits ++ rest))
      (if negative then -(Nat.ofDigitChars 10 digits 0 : Int) else Nat.ofDigitChars 10 digits 0)
      rest := by
  have htake := reads_takeWhile h.2 fun c hc => (hrest.digit hc).1
  have hsome : digits.isEmpty = false := List.isEmpty_eq_false_iff.2 h.1
  rw [exponent]
  refine (reads_exponentSign hsign h rest).bind (htake.bind ?_)
  rw [hsome]
  exact reads_pure _ rest

/-- An exponent with its mark is read, if there is one. -/
theorem Power.reads {text : List Char} {size : Option Int} (h : Power text size) {rest : List Char}
    (hrest : EndsToken rest) : Reads power (text ++ rest) size rest := by
  rw [power, reads_get_bind]
  cases h with
  | missing =>
    cases rest with
    | nil => rfl
    | cons c later =>
      have hmark : ¬ (c = 'e' ∨ c = 'E') := not_or.2
        ⟨hrest.ne rfl (by decide), hrest.ne rfl (by decide)⟩
      rw [List.nil_append]
      simp only [if_neg hmark]
      exact reads_pure _ _
  | @positive mark sign digits hmark hsign h =>
    have hread := (reads_exponent (.inl ⟨hsign, rfl⟩) h hrest).map some
    rw [List.cons_append, List.append_assoc]
    simp only [if_pos hmark]
    exact hread
  | @negative mark digits hmark h =>
    have hread := (reads_exponent (.inr ⟨rfl, rfl⟩) h hrest).map some
    simp only [List.cons_append, if_pos hmark]
    exact hread

/-- An exponent begins with its mark. -/
theorem Power.head {exponent : List Char} {power : Option Int} (h : Power exponent power)
    {rest : List Char} (hrest : EndsToken rest) :
    ∀ c ∈ (exponent ++ rest).head?, c.isDigit = false ∧ c ∉ ['.', 'x', 'X'] := by
  cases h with
  | missing =>
    intro c hc
    refine ⟨(hrest.digit hc).1, ?_⟩
    simp only [List.mem_cons, List.not_mem_nil, or_false, not_or]
    exact ⟨(hrest.head hc).2.2, hrest.ne hc (by decide), hrest.ne hc (by decide)⟩
  | positive hmark _ _ => rcases hmark with rfl | rfl <;> (rintro c ⟨⟩; decide)
  | negative hmark _ => rcases hmark with rfl | rfl <;> (rintro c ⟨⟩; decide)

/-- A fraction begins with its point. -/
theorem Fraction.head {point exponent : List Char} {fraction : Option (List Char)}
    {power : Option Int} (h : Fraction point fraction) (hpower : Power exponent power)
    {rest : List Char} (hrest : EndsToken rest) :
    ∀ c ∈ (point ++ (exponent ++ rest)).head?, c.isDigit = false ∧ c ≠ 'x' ∧ c ≠ 'X' := by
  cases h with
  | missing =>
    intro c hc
    obtain ⟨hdigit, hmem⟩ := hpower.head hrest c hc
    simp only [List.mem_cons, List.not_mem_nil, or_false, not_or] at hmem
    exact ⟨hdigit, hmem.2⟩
  | places h => rintro c ⟨⟩; decide

/-- The places of a fraction are read, if there is a point. -/
theorem Fraction.reads {text behind : List Char} {places : Option (List Char)}
    {size : Option Int} (h : Fraction text places) (hpower : Power behind size) {rest : List Char}
    (hrest : EndsToken rest) :
    Reads fraction (text ++ (behind ++ rest)) places (behind ++ rest) := by
  have hhead := hpower.head hrest
  rw [fraction, reads_get_bind]
  cases h with
  | missing =>
    rw [List.nil_append]
    split
    · rename_i heq
      rw [heq] at hhead
      exact absurd (by decide) (hhead '.' rfl).2
    · exact reads_pure _ _
  | @places places h =>
    exact (reads_takeWhile h fun c hc => (hhead c hc).1).map some

/-! ## Numbers -/

/-- The digits of a whole number are digits. -/
theorem WholeDigits.isDigit {digits : List Char} (h : WholeDigits digits) :
    ∀ c ∈ digits, c.isDigit = true := by
  rcases h with rfl | ⟨⟨-, hdigits⟩, -⟩
  · exact List.forall_mem_singleton.2 rfl
  · exact hdigits

/-- A zero is the first of no other digits. -/
theorem WholeDigits.eq_zero {later : List Char} (h : WholeDigits ('0' :: later)) : later = [] := by
  rcases h with heq | ⟨-, hzero⟩
  · exact (List.cons.inj heq).2
  · exact absurd rfl hzero

/-- A decimal number is read up to where it ends. -/
theorem reads_decimal_parts (negative : Bool) {digits point exponent : List Char}
    {places : Option (List Char)} {size : Option Int} (hfraction : Fraction point places)
    (hpower : Power exponent size)
    (hdigits : WholeDigits digits ∨ digits = [] ∧ places.getD [] ≠ []) {rest : List Char}
    (hrest : EndsToken rest) :
    Reads (decimal negative) (digits ++ (point ++ (exponent ++ rest)))
      (ofParts negative digits places size) rest := by
  have hall : ∀ c ∈ digits, c.isDigit = true := by
    rcases hdigits with hwhole | ⟨rfl, -⟩
    · exact hwhole.isDigit
    · exact List.forall_mem_nil _
  have hsome : (digits.isEmpty && (places.getD []).isEmpty) = false := by
    rcases hdigits with (rfl | ⟨⟨hne, -⟩, -⟩) | ⟨rfl, hne⟩
    · rfl
    · rw [List.isEmpty_eq_false_iff.2 hne, Bool.false_and]
    · rw [List.isEmpty_eq_false_iff.2 hne, Bool.and_false]
  have htake := reads_takeWhile hall fun c hc => (hfraction.head hpower hrest c hc).1
  rw [decimal]
  refine htake.bind ?_
  split
  · -- only a lone zero is the first digit
    rcases hdigits with hwhole | ⟨heq, -⟩
    · exact absurd hwhole.eq_zero (List.cons_ne_nil _ _)
    · cases heq
  · refine (hfraction.reads hpower hrest).bind ?_
    rw [hsome]
    exact (hpower.reads hrest).map _

/-- A decimal number begins with a digit or a point. Behind a zero comes no mark of another base. -/
theorem front_decimal {digits point exponent : List Char} {places : Option (List Char)}
    {size : Option Int} (hfraction : Fraction point places) (hpower : Power exponent size)
    (hdigits : WholeDigits digits ∨ digits = [] ∧ places.getD [] ≠ []) {rest : List Char}
    (hrest : EndsToken rest) :
    ∃ c later, digits ++ (point ++ (exponent ++ rest)) = c :: later ∧
      (c.isDigit = true ∨ c = '.') ∧
        (c = '0' → ∀ mark ∈ later.head?, ¬ (mark = 'x' ∨ mark = 'X')) := by
  rcases hdigits with hwhole | ⟨rfl, hplaces⟩
  · cases digits with
    | nil =>
      rcases hwhole with heq | ⟨⟨hne, -⟩, -⟩
      · cases heq
      · exact absurd rfl hne
    | cons c later =>
      refine ⟨c, _, rfl, .inl (hwhole.isDigit c List.mem_cons_self), ?_⟩
      rintro rfl mark hmark
      obtain rfl := hwhole.eq_zero
      exact not_or.2 (hfraction.head hpower hrest mark hmark).2
  · cases hfraction with
    | missing => exact absurd rfl hplaces
    | places h => exact ⟨'.', _, rfl, .inr rfl, fun heq => absurd heq (by decide)⟩

/-- A number is read behind its sign. -/
theorem Magnitude.reads {negative : Bool} {text : List Char} {value : Value}
    (h : Magnitude negative text value) {rest : List Char} (hrest : EndsToken rest) :
    Reads (unsignedNumber negative) (text ++ rest) value rest := by
  cases h with
  | infinity =>
    have hchars : "Infinity".toList = ['I', 'n', 'f', 'i', 'n', 'i', 't', 'y'] := rfl
    rw [unsignedNumber, reads_get_bind, hchars]
    exact (reads_word ['I', 'n', 'f', 'i', 'n', 'i', 't', 'y'] rest).bind (reads_pure _ rest)
  | nan =>
    have hchars : "NaN".toList = ['N', 'a', 'N'] := rfl
    rw [unsignedNumber, reads_get_bind, hchars]
    exact (reads_word ['N', 'a', 'N'] rest).bind (reads_pure _ rest)
  | @hex mark digits value hmark hne hvalue =>
    have hall := hexDigit_of_foldlM hvalue
    have hsome : digits.isEmpty = false := List.isEmpty_eq_false_iff.2 hne
    have htake := reads_takeWhile hall fun c hc => (hrest.digit hc).2
    rw [unsignedNumber, reads_get_bind]
    simp only [List.cons_append, if_pos hmark]
    refine reads_set_bind.2 (htake.bind ?_)
    rw [hsome, hvalue]
    exact reads_pure _ rest
  | @decimal digits point exponent places size hfraction hpower hdigits =>
    have hread := reads_decimal_parts negative hfraction hpower hdigits hrest
    obtain ⟨c, later, heq, hc, hmark⟩ := front_decimal hfraction hpower hdigits hrest
    have hword : c ≠ 'I' ∧ c ≠ 'N' := by
      rcases hc with hdigit | rfl
      · exact ⟨(ne_of_isDigit hdigit).2.2.2.1, (ne_of_isDigit hdigit).2.2.2.2.1⟩
      · decide
    rw [List.append_assoc, List.append_assoc, unsignedNumber, reads_get_bind]
    rw [heq] at hread ⊢
    split
    · rename_i hfront
      exact absurd (List.cons.inj hfront).1 hword.1
    · rename_i hfront
      exact absurd (List.cons.inj hfront).1 hword.2
    · rename_i hfront
      obtain ⟨rfl, rfl⟩ := List.cons.inj hfront
      rw [if_neg (hmark rfl _ rfl)]
      exact hread
    · exact hread

/-- A number begins behind its sign with a digit, a point or the first letter of a word. -/
theorem Magnitude.head {negative : Bool} {text : List Char} {value : Value}
    (h : Magnitude negative text value) :
    ∃ c later, text = c :: later ∧ (c.isDigit = true ∨ c ∈ ['.', 'I', 'N']) := by
  cases h with
  | infinity => exact ⟨'I', "nfinity".toList, rfl, .inr (by decide)⟩
  | nan => exact ⟨'N', "aN".toList, rfl, .inr (by decide)⟩
  | hex hmark hne hvalue => exact ⟨'0', _, rfl, .inl (by decide)⟩
  | decimal hfraction hpower hdigits =>
    have hend : EndsToken [] := nofun
    obtain ⟨c, later, heq, hc, -⟩ := front_decimal hfraction hpower hdigits hend
    rw [List.append_nil] at heq
    exact ⟨c, later, heq, hc.imp_right fun hpoint => by simp [hpoint]⟩

/-- A number begins as the reader takes a number to begin. -/
theorem NumberText.head {text : List Char} {value : Value} (h : NumberText text value) :
    ∃ c later, text = c :: later ∧ BeginsNumber c := by
  cases h with
  | unsigned h =>
    obtain ⟨c, later, heq, hc⟩ := h.head
    exact ⟨c, later, heq, hc.imp_right fun hmem =>
      List.mem_cons_of_mem _ (List.mem_cons_of_mem _ hmem)⟩
  | plus h => exact ⟨'+', _, rfl, .inr (by decide)⟩
  | minus h => exact ⟨'-', _, rfl, .inr (by decide)⟩

/-- A number is read up to where it ends. -/
theorem NumberText.reads {text : List Char} {value : Value} (h : NumberText text value)
    {rest : List Char} (hrest : EndsToken rest) : Reads number (text ++ rest) value rest := by
  rw [number, reads_get_bind]
  cases h with
  | unsigned h =>
    have hread := h.reads hrest
    obtain ⟨c, later, rfl, hc⟩ := h.head
    have hsign : c ≠ '+' ∧ c ≠ '-' := by
      rcases hc with hdigit | hmem
      · exact ⟨(ne_of_isDigit hdigit).2.1, (ne_of_isDigit hdigit).2.2.1⟩
      · constructor <;> (rintro rfl; exact absurd hmem (by decide))
    rw [List.cons_append] at hread ⊢
    split
    · rename_i heq
      exact absurd (List.cons.inj heq).1 hsign.1
    · rename_i heq
      exact absurd (List.cons.inj heq).1 hsign.2
    · exact hread
  | plus h => exact h.reads hrest
  | minus h => exact h.reads hrest

end EditorFormat.Json5
