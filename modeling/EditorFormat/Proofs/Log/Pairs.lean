import EditorFormat.Proofs.Log.Locations

/-!
# The first pair of numbers in a message

Only the first colon with a digit on either side is looked at (`first_pair_is_read`). The runs
of digits around it are the line and the column when both are numbers of 64 bits in the digits from
`0` to `9`; otherwise there is no location, whatever else the message says.
-/

namespace EditorFormat.SourceLocation

open Text (isDecimalDigit)

/-- A text that is cut around its first colon with a digit on either side. The digits next to the
colon are taken as far as they go. -/
structure CutAtPair (text before line column after : List Char) : Prop where
  text_eq : text = before ++ line ++ ':' :: (column ++ after)
  isFirst : ¬ HasDigitPair (before ++ line)
  line_ne_nil : line ≠ []
  line_digits : ∀ c ∈ line, isDecimalDigit c = true
  before_ends : ∀ c ∈ before.getLast?, isDecimalDigit c = false
  column_ne_nil : column ≠ []
  column_digits : ∀ c ∈ column, isDecimalDigit c = true
  after_begins : ∀ c ∈ after.head?, isDecimalDigit c = false

/-- Digits from `0` to `9` that stand for a number of 64 bits. -/
def IsNumber (digits : List Char) (n : Nat) : Prop :=
  (∀ c ∈ digits, c.isDigit = true) ∧ Nat.ofDigitChars 10 digits 0 = n ∧ n < UInt64.size

/-! ## The first pair -/

/-- Digits hold no pair. -/
theorem not_hasDigitPair_of_digits {digits : List Char}
    (h : ∀ c ∈ digits, isDecimalDigit c = true) : ¬ HasDigitPair digits := by
  intro hpair
  have hcolon := h ':' hpair.colon_mem
  rw [isDecimalDigit_colon] at hcolon
  cases hcolon

/-- A text with pairs has a first one. -/
theorem exists_first_pair {text : List Char} (h : HasDigitPair text) :
    ∃ before left right after, text = before ++ left :: ':' :: right :: after ∧
      isDecimalDigit left = true ∧ isDecimalDigit right = true ∧
      ¬ HasDigitPair (before ++ [left]) := by
  induction text with
  | nil =>
    obtain ⟨before, left, right, after, heq, -⟩ := h
    simp at heq
  | cons c rest ih =>
    by_cases hfront : isDecimalDigit c = true ∧ rest.head? = some ':' ∧
        (rest[1]?.any isDecimalDigit) = true
    · obtain ⟨hc, hcolon, hright⟩ := hfront
      obtain ⟨others, rfl⟩ := List.head?_eq_some_iff.1 hcolon
      cases others with
      | nil => cases hright
      | cons right after =>
        exact ⟨[], c, right, after, rfl, hc, hright, not_hasDigitPair_of_digits (by simpa using hc)⟩
    · have hrest := (hasDigitPair_cons.1 h).resolve_left hfront
      obtain ⟨before, left, right, after, rfl, hleft, hright, hnone⟩ := ih hrest
      refine ⟨c :: before, left, right, after, rfl, hleft, hright, fun hpair => ?_⟩
      rcases hasDigitPair_cons.1 hpair with ⟨hc, hcolon, hdigit⟩ | hlater
      · -- a pair at the front of what comes before would be at the front of the text
        refine hfront ⟨hc, ?_, ?_⟩
        · cases before with
          | nil =>
            obtain rfl := Option.some.inj hcolon
            rw [isDecimalDigit_colon] at hleft
            cases hleft
          | cons first others => exact hcolon
        · cases before with
          | nil => cases hdigit
          | cons first others =>
            cases others with
            | nil => exact hleft
            | cons second others => exact hdigit
      · exact hnone hlater

/-- The last digits of a text, as far as they go, and what is before them. -/
theorem exists_last_digits (text : List Char) :
    ∃ before digits, text = before ++ digits ∧ (∀ c ∈ digits, isDecimalDigit c = true) ∧
      ∀ c ∈ before.getLast?, isDecimalDigit c = false := by
  refine ⟨(text.reverse.dropWhile isDecimalDigit).reverse,
    (text.reverse.takeWhile isDecimalDigit).reverse, ?_, fun c hc => ?_, fun c hc => ?_⟩
  · rw [← List.reverse_append, List.takeWhile_append_dropWhile, List.reverse_reverse]
  · exact List.all_eq_true.1 List.all_takeWhile c (List.mem_reverse.1 hc)
  · have hfirst := List.head?_dropWhile_not isDecimalDigit text.reverse
    rw [List.getLast?_reverse] at hc
    rw [hc] at hfirst
    simpa using hfirst

/-- A text with pairs is cut around the first one. -/
theorem exists_cutAtPair {text : List Char} (h : HasDigitPair text) :
    ∃ before line column after, CutAtPair text before line column after := by
  obtain ⟨front, left, right, behind, rfl, hleft, hright, hnone⟩ := exists_first_pair h
  obtain ⟨before, line, hfront, hline, hbefore⟩ := exists_last_digits (front ++ [left])
  refine ⟨before, line, (right :: behind).takeWhile isDecimalDigit,
    (right :: behind).dropWhile isDecimalDigit, ?_, ?_, ?_, hline, hbefore, ?_, ?_, ?_⟩
  · rw [List.takeWhile_append_dropWhile, ← hfront]
    simp
  · rwa [← hfront]
  · rintro rfl
    have hlast := hbefore left (by rw [← List.append_nil before, ← hfront]; simp)
    rw [hleft] at hlast
    cases hlast
  · simp [hright]
  · exact List.all_eq_true.1 List.all_takeWhile
  · have hfirst := List.head?_dropWhile_not isDecimalDigit (right :: behind)
    intro c hc
    rw [hc] at hfirst
    simpa using hfirst

/-! ## What the search finds -/

/-- The search finds the digits around the first pair. -/
theorem CutAtPair.digitPair?_eq {text before line column after : List Char}
    (h : CutAtPair text before line column after) : digitPair? [] text = some (line, column) := by
  rw [h.text_eq, List.append_assoc]
  exact digitPair?_append h.line_digits h.line_ne_nil h.column_digits h.column_ne_nil
    h.after_begins [] (List.forall_mem_nil _) h.before_ends h.isFirst

/-- A run of digits is a number exactly when all of it is one. -/
theorem number?_eq_some_iff {digits : List Char} {n : Nat} :
    number? digits = some n ↔ IsNumber digits n := by
  rw [number?, IsNumber]
  constructor
  · intro h
    split at h
    · rename_i hall
      simp only at h
      split at h
      · rename_i hlt
        obtain rfl := Option.some.inj h
        exact ⟨List.all_eq_true.1 hall, rfl, hlt⟩
      · cases h
    · cases h
  · rintro ⟨hall, rfl, hlt⟩
    rw [if_pos (List.all_eq_true.2 hall)]
    exact if_pos hlt

/-- The location around the first pair, if both numbers are ones. -/
theorem CutAtPair.parse?_eq_some_iff {message : String} {before line column after : List Char}
    (h : CutAtPair message.toList before line column after) {location : SourceLocation} :
    parse? message = some location ↔
      IsNumber line location.line ∧ IsNumber column location.column := by
  have hparse : parse? message = (number? line).bind fun row =>
      (number? column).map fun place => ⟨row, place⟩ := by
    simp only [parse?, h.digitPair?_eq, Option.bind_eq_bind, Option.bind_some]
    cases number? line with
    | none => rfl
    | some row => exact Option.map_eq_bind.symm
  rw [hparse, ← number?_eq_some_iff, ← number?_eq_some_iff]
  constructor
  · intro hfound
    obtain ⟨row, hrow, hrest⟩ := Option.bind_eq_some_iff.1 hfound
    obtain ⟨place, hplace, rfl⟩ := Option.map_eq_some_iff.1 hrest
    exact ⟨hrow, hplace⟩
  · rintro ⟨hrow, hplace⟩
    rw [hrow, hplace]
    rfl

/-- Digits behind a text make a pair with it only behind a colon. -/
theorem not_hasDigitPair_append {before digits : List Char} (hbefore : ¬ HasDigitPair before)
    (hlast : ':' ∉ before.getLast?) (hdigits : ∀ c ∈ digits, isDecimalDigit c = true) :
    ¬ HasDigitPair (before ++ digits) := by
  rintro ⟨front, left, right, behind, heq, hleft, hright⟩
  have hcut : before ++ digits = (front ++ [left, ':']) ++ right :: behind := by simpa using heq
  rcases List.append_eq_append_iff.1 hcut with ⟨middle, hfront, hmiddle⟩ | ⟨middle, hfront, hmiddle⟩
  · -- the colon would be one of the digits or the end of the text before them
    rcases List.eq_nil_or_concat middle with rfl | ⟨others, c, rfl⟩
    · rw [List.append_nil] at hfront
      exact hlast (by rw [← hfront]; simp)
    · have hc : c = ':' := by
        have hends := congrArg List.getLast? hfront
        simpa using hends.symm
      subst hc
      have hcolon := hdigits ':' (by rw [hmiddle]; simp)
      rw [isDecimalDigit_colon] at hcolon
      cases hcolon
  · cases middle with
    | nil => exact hlast (by rw [hfront]; simp)
    | cons first others =>
      obtain ⟨rfl, -⟩ := List.cons.inj hmiddle
      exact hbefore ⟨front, left, right, others, by rw [hfront]; simp, hleft, hright⟩

/-- A message in which only the first colon with a digit on either side is looked at. -/
structure ReadsFirstPair (message : String) : Prop where
  unpaired : ¬ HasDigitPair message.toList → parse? message = none
  cut : HasDigitPair message.toList →
    ∃ before line column after, CutAtPair message.toList before line column after
  paired : ∀ before line column after, CutAtPair message.toList before line column after →
    ∀ location, parse? message = some location ↔
      IsNumber line location.line ∧ IsNumber column location.column
  /-- A location that is written in the message is found when no pair is in front of it, neither a
  digit nor a colon is next to it there, and no digit follows. -/
  displayed : ∀ (before after : List Char) (location : SourceLocation),
    message.toList = before ++ location.display.toList ++ after →
    ¬ HasDigitPair before →
    (∀ c ∈ before.getLast?, isDecimalDigit c = false ∧ c ≠ ':') →
    (∀ c ∈ after.head?, isDecimalDigit c = false) →
    location.line < UInt64.size → location.column < UInt64.size →
    parse? message = some location

/-- Every message is read at its first pair. -/
theorem first_pair_is_read (message : String) : ReadsFirstPair message where
  unpaired := parse?_of_no_pair
  cut := exists_cutAtPair
  paired := fun _ _ _ _ hcut _ => hcut.parse?_eq_some_iff
  displayed := fun before after location hmessage hbefore hend hafter hline hcolumn => by
    have hdigits : ∀ c ∈ Nat.toDigits 10 location.line, isDecimalDigit c = true :=
      fun c hc => isDecimalDigit_of_isDigit (isDigit_of_mem_toDigits hc)
    have hnone := not_hasDigitPair_append hbefore (fun hc => (hend ':' hc).2 rfl) hdigits
    exact parse?_of_reports ⟨⟨before, after, hmessage, fun c hc => (hend c hc).1, hafter, hnone⟩,
      hline, hcolumn⟩

/-- Of a chain of numbers the first two are read, and a pair that comes later is not. -/
theorem parse?_chain : parse? "at 12:34:5 (6:7)" = some ⟨12, 34⟩ := by
  have htext : "at 12:34:5 (6:7)".toList = "at ".toList ++
      (SourceLocation.mk 12 34).display.toList ++ ":5 (6:7)".toList := by decide +kernel
  have hnone : ¬ HasDigitPair "at ".toList := fun h => absurd h.colon_mem (by decide)
  have hend : ∀ c ∈ "at ".toList.getLast?, isDecimalDigit c = false ∧ c ≠ ':' := by
    rintro c ⟨⟩
    decide
  have hafter : ∀ c ∈ ":5 (6:7)".toList.head?, isDecimalDigit c = false := by
    rintro c ⟨⟩
    decide
  exact (first_pair_is_read _).displayed _ _ ⟨12, 34⟩ htext hnone hend hafter (by decide) (by decide)

/-- The first pair counts although its digit is no ASCII digit, and it is no number. -/
example : parse? "𖵰:1 2:3" = none := by
  decide +kernel

end EditorFormat.SourceLocation
