import EditorFormat.Log.SourceLocation

/-!
# Messages that report a location

A message reports a location when it holds the written form of the location and, before that, no
colon between two digits. Such a location is found, whatever else the message says
(`parse?_of_reports`). The search remembers the digits that it has just passed, so the induction is
on what comes before the location, for any such digits.
-/

namespace EditorFormat.SourceLocation

open Text (isDecimalDigit)

/-- A text has a colon with a digit on either side. -/
def HasDigitPair (text : List Char) : Prop :=
  ∃ before left right after, text = before ++ left :: ':' :: right :: after ∧
    isDecimalDigit left = true ∧ isDecimalDigit right = true

/-- A pair is at the front of a text or in what is left of it without its first character. -/
theorem hasDigitPair_cons {c : Char} {rest : List Char} :
    HasDigitPair (c :: rest) ↔
      isDecimalDigit c = true ∧ rest.head? = some ':' ∧ (rest[1]?.any isDecimalDigit) = true ∨
        HasDigitPair rest := by
  constructor
  · rintro ⟨before, left, right, after, heq, hleft, hright⟩
    cases before with
    | nil =>
      obtain ⟨rfl, rfl⟩ := List.cons.inj heq
      exact .inl ⟨hleft, rfl, hright⟩
    | cons first others =>
      obtain ⟨rfl, rfl⟩ := List.cons.inj heq
      exact .inr ⟨others, left, right, after, rfl, hleft, hright⟩
  · rintro (⟨hc, hcolon, hright⟩ | ⟨before, left, right, after, rfl, hleft, hright⟩)
    · obtain ⟨others, rfl⟩ := List.head?_eq_some_iff.1 hcolon
      cases others with
      | nil => exact absurd hright nofun
      | cons right after => exact ⟨[], c, right, after, rfl, hc, hright⟩
    · exact ⟨c :: before, left, right, after, rfl, hleft, hright⟩

/-- Whether a text has a pair is found by going through it. -/
instance decidableHasDigitPair : (text : List Char) → Decidable (HasDigitPair text)
  | [] => isFalse fun ⟨_, _, _, _, h, _⟩ => absurd h (by simp)
  | _ :: rest =>
    have := decidableHasDigitPair rest
    decidable_of_iff _ hasDigitPair_cons.symm

/-- A message holds the written form of a location, with no other digits next to it and nothing
before it that looks like a location. -/
structure Reports (message : String) (location : SourceLocation) : Prop where
  text : ∃ before after : List Char,
    message.toList = before ++ location.display.toList ++ after ∧
    (∀ c ∈ before.getLast?, isDecimalDigit c = false) ∧
    (∀ c ∈ after.head?, isDecimalDigit c = false) ∧
    ¬ HasDigitPair (before ++ Nat.toDigits 10 location.line)
  line_lt : location.line < UInt64.size
  column_lt : location.column < UInt64.size

/-! ## Digits -/

/-- A colon is no digit. -/
theorem isDecimalDigit_colon : isDecimalDigit ':' = false := by
  decide

/-- The digits from `0` to `9` are decimal digits. -/
theorem isDecimalDigit_of_isDigit {c : Char} (h : c.isDigit = true) : isDecimalDigit c = true := by
  have hbounds := Char.isDigit_iff_toNat.1 h
  refine List.any_eq_true.2 ⟨(0x0030, 0x0039), List.mem_cons_self .., ?_⟩
  simp only [Bool.and_eq_true, decide_eq_true_eq]
  exact hbounds

/-- A number is written with digits. -/
theorem isDigit_of_mem_toDigits {c : Char} {n : Nat} (h : c ∈ Nat.toDigits 10 n) :
    c.isDigit = true :=
  Nat.isDigit_of_mem_toDigits (by decide) (by decide) h

/-- A written number stands for itself. -/
theorem number?_toDigits {n : Nat} (h : n < UInt64.size) :
    number? (Nat.toDigits 10 n) = some n := by
  have hdigits : (Nat.toDigits 10 n).all Char.isDigit = true :=
    List.all_eq_true.2 fun c hc => isDigit_of_mem_toDigits hc
  rw [number?, if_pos hdigits]
  simp only [Nat.ofDigitChars_ten_toDigits]
  exact if_pos h

/-- The written form of a location. -/
theorem toList_display (location : SourceLocation) :
    location.display.toList =
      Nat.toDigits 10 location.line ++ ':' :: Nat.toDigits 10 location.column := by
  simp [display]

/-! ## The search for a location -/

/-- A pair that is found in a part of a text is in the text. -/
theorem HasDigitPair.append_left {text : List Char} (h : HasDigitPair text) (first : List Char) :
    HasDigitPair (first ++ text) := by
  obtain ⟨before, left, right, after, rfl, hleft, hright⟩ := h
  exact ⟨first ++ before, left, right, after, by simp, hleft, hright⟩

section Search

variable {line column after : List Char} (hline : ∀ c ∈ line, isDecimalDigit c = true)
  (hlineNe : line ≠ []) (hcolumn : ∀ c ∈ column, isDecimalDigit c = true) (hcolumnNe : column ≠ [])
  (hafter : ∀ c ∈ after.head?, isDecimalDigit c = false)

include hline hcolumn hcolumnNe hafter

/-- Digits up to a colon with a digit behind it are found, together with those just before them. -/
theorem digitPair?_digits (passed : List Char) (hsome : passed ≠ [] ∨ line ≠ []) :
    digitPair? passed (line ++ ':' :: (column ++ after)) =
      some (passed.reverse ++ line, column) := by
  induction line generalizing passed with
  | nil =>
    have hhead : ((column ++ after).head?.any isDecimalDigit) = true := by
      obtain ⟨first, others, rfl⟩ := List.exists_cons_of_ne_nil hcolumnNe
      exact hcolumn first (List.mem_cons_self ..)
    have htake : (column ++ after).takeWhile isDecimalDigit = column := by
      rw [List.takeWhile_append_of_pos hcolumn]
      cases after with
      | nil => simp
      | cons c later => simp [hafter c rfl]
    rw [List.nil_append, digitPair?, if_neg (by simp [isDecimalDigit_colon]),
      if_pos ⟨rfl, hsome.resolve_right fun h => h rfl, hhead⟩, htake, List.append_nil]
  | cons c others ih =>
    have hothers : ∀ d ∈ others, isDecimalDigit d = true :=
      fun d hd => hline d (List.mem_cons_of_mem _ hd)
    rw [List.cons_append, digitPair?, if_pos (hline c (List.mem_cons_self ..)),
      ih hothers (c :: passed) (.inl (by simp)), List.reverse_cons, List.append_assoc,
      List.singleton_append]

include hlineNe

/-- What comes before the first colon between digits is passed over. -/
theorem digitPair?_append {before : List Char} (passed : List Char)
    (hpassed : ∀ c ∈ passed, isDecimalDigit c = true)
    (hend : ∀ c ∈ (passed.reverse ++ before).getLast?, isDecimalDigit c = false)
    (hnone : ¬ HasDigitPair (passed.reverse ++ (before ++ line))) :
    digitPair? passed (before ++ (line ++ ':' :: (column ++ after))) = some (line, column) := by
  induction before generalizing passed with
  | nil =>
    cases passed with
    | nil => exact digitPair?_digits hline hcolumn hcolumnNe hafter [] (.inr hlineNe)
    | cons first others =>
      -- a digit that was just passed would be part of the line
      have hfirst := hend first (by simp)
      rw [hpassed first (List.mem_cons_self ..)] at hfirst
      exact Bool.noConfusion hfirst
  | cons c rest ih =>
    have hassoc (others : List Char) : passed.reverse ++ c :: others =
        (c :: passed).reverse ++ others := by simp
    rw [List.cons_append, hassoc] at hnone
    rw [hassoc] at hend
    by_cases hc : isDecimalDigit c = true
    · rw [List.cons_append, digitPair?, if_pos hc]
      exact ih (c :: passed) (List.forall_mem_cons.2 ⟨hc, hpassed⟩) hend hnone
    · obtain ⟨right, more, hright⟩ : ∃ right more, rest ++ line = right :: more :=
        List.exists_cons_of_ne_nil (List.append_ne_nil_of_right_ne_nil rest hlineNe)
      -- a colon here has no digit before it, or none behind it
      have hskip : ¬ (c = ':' ∧ passed ≠ [] ∧
          ((rest ++ (line ++ ':' :: (column ++ after))).head?.any isDecimalDigit) = true) := by
        rintro ⟨rfl, hne, hhead⟩
        obtain ⟨left, others, rfl⟩ := List.exists_cons_of_ne_nil hne
        rw [← List.append_assoc, hright] at hhead
        refine hnone ⟨others.reverse, left, right, more, ?_, hpassed left (by simp), hhead⟩
        rw [hright]
        simp
      rw [List.cons_append, digitPair?, if_neg hc, if_neg hskip]
      refine ih [] nofun (fun d hd => ?_) fun hpair => hnone (hpair.append_left _)
      cases rest with
      | nil => exact absurd hd nofun
      | cons first others => exact hend d (by simpa using hd)

end Search

/-- A reported location is found. -/
theorem parse?_of_reports {message : String} {location : SourceLocation}
    (h : Reports message location) : parse? message = some location := by
  obtain ⟨before, after, hmessage, hend, hafter, hnone⟩ := h.text
  have hdigits (n : Nat) : ∀ c ∈ Nat.toDigits 10 n, isDecimalDigit c = true :=
    fun c hc => isDecimalDigit_of_isDigit (isDigit_of_mem_toDigits hc)
  have hfound : digitPair? [] message.toList =
      some (Nat.toDigits 10 location.line, Nat.toDigits 10 location.column) := by
    rw [hmessage, toList_display, List.append_assoc, List.append_assoc, List.cons_append]
    exact digitPair?_append (hdigits _) Nat.toDigits_ne_nil (hdigits _) Nat.toDigits_ne_nil hafter
      [] nofun hend hnone
  simp [parse?, hfound, number?_toDigits h.line_lt, number?_toDigits h.column_lt]

/-! ## Messages without a location -/

/-- Where no colon is, no pair is. -/
theorem HasDigitPair.colon_mem {text : List Char} (h : HasDigitPair text) : ':' ∈ text := by
  obtain ⟨before, left, right, after, rfl, -⟩ := h
  simp

/-- Where no pair is, the search finds none. -/
theorem digitPair?_of_no_pair {text passed : List Char}
    (hpassed : ∀ c ∈ passed, isDecimalDigit c = true)
    (h : ¬ HasDigitPair (passed.reverse ++ text)) : digitPair? passed text = none := by
  induction text generalizing passed with
  | nil => rfl
  | cons c rest ih =>
    by_cases hc : isDecimalDigit c = true
    · rw [digitPair?, if_pos hc]
      exact ih (List.forall_mem_cons.2 ⟨hc, hpassed⟩) (by simpa using h)
    · have hskip : ¬ (c = ':' ∧ passed ≠ [] ∧ (rest.head?.any isDecimalDigit) = true) := by
        rintro ⟨rfl, hne, hhead⟩
        obtain ⟨left, others, rfl⟩ := List.exists_cons_of_ne_nil hne
        cases rest with
        | nil => cases hhead
        | cons right after =>
          exact h ⟨others.reverse, left, right, after, by simp, hpassed left (by simp), hhead⟩
      have hrest : ¬ HasDigitPair (passed.reverse ++ c :: rest) → ¬ HasDigitPair rest :=
        fun hnone hpair => hnone (by
          simpa using hpair.append_left (passed.reverse ++ [c]))
      rw [digitPair?, if_neg hc, if_neg hskip]
      exact ih (List.forall_mem_nil _) (hrest h)

/-- A message without a pair has no location. -/
theorem parse?_of_no_pair {message : String} (h : ¬ HasDigitPair message.toList) :
    parse? message = none := by
  have hnone : digitPair? [] message.toList = none :=
    digitPair?_of_no_pair (List.forall_mem_nil _) h
  rw [parse?, hnone]
  rfl

/-- A message without a colon has no location. -/
theorem parse?_of_no_colon {message : String} (h : ':' ∉ message.toList) :
    parse? message = none :=
  parse?_of_no_pair fun hpair => h hpair.colon_mem

end EditorFormat.SourceLocation
