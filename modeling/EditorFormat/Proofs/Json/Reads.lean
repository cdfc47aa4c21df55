import EditorFormat.Json.Reader

/-!
# What readers read

`Reads reader text value rest` says that a reader takes `value` off a text and leaves `rest`. The
laws below take a reader apart step by step, in either direction.
-/

namespace EditorFormat.Json

namespace Reader

variable {α β : Type}

/-- A reader reads a value off a text and leaves the rest. -/
def Reads (reader : Reader α) (text : List Char) (value : α) (rest : List Char) : Prop :=
  StateT.run reader text = .ok (value, rest)

/-- Readers that follow each other share out the text. -/
theorem reads_bind {reader : Reader α} {next : α → Reader β} {text rest : List Char} {value : β} :
    Reads (reader >>= next) text value rest ↔
      ∃ first middle, Reads reader text first middle ∧ Reads (next first) middle value rest := by
  simp only [Reads, StateT.run_bind]
  cases StateT.run reader text with
  | error error => exact ⟨nofun, nofun⟩
  | ok found =>
    refine ⟨fun h => ⟨found.1, found.2, rfl, h⟩, ?_⟩
    rintro ⟨first, middle, hfirst, hnext⟩
    cases hfirst
    exact hnext

/-- At most one value is read off a text. -/
theorem Reads.unique {reader : Reader α} {text rest after : List Char} {value other : α}
    (h : Reads reader text value rest) (hother : Reads reader text other after) :
    other = value ∧ after = rest := by
  have heq := Except.ok.inj (hother.symm.trans h)
  exact ⟨congrArg Prod.fst heq, congrArg Prod.snd heq⟩

/-- What is read behind a value that was read. -/
theorem Reads.bind_iff {reader : Reader α} {next : α → Reader β} {text middle rest : List Char}
    {first : α} {value : β} (h : Reads reader text first middle) :
    Reads (reader >>= next) text value rest ↔ Reads (next first) middle value rest := by
  rw [reads_bind]
  constructor
  · rintro ⟨other, after, hother, hnext⟩
    obtain ⟨rfl, rfl⟩ := h.unique hother
    exact hnext
  · exact fun hnext => ⟨first, middle, h, hnext⟩

/-- A value is read off no text. -/
@[simp] theorem reads_pure {value found : α} {text rest : List Char} :
    Reads (pure value) text found rest ↔ found = value ∧ rest = text := by
  simp only [Reads, StateT.run_pure]
  refine ⟨fun h => ?_, ?_⟩
  · cases h
    exact ⟨rfl, rfl⟩
  · rintro ⟨rfl, rfl⟩
    rfl

/-- A problem ends the reading. -/
@[simp] theorem not_reads_throw {error : ReadError} {value : α} {text rest : List Char} :
    ¬ Reads (throw error) text value rest :=
  nofun

/-- Nothing follows a problem. -/
@[simp] theorem not_reads_throw_bind {error : ReadError} {next : α → Reader β} {value : β}
    {text rest : List Char} : ¬ Reads (throw error >>= next) text value rest :=
  nofun

/-- A value that was read can be changed. -/
theorem reads_map {reader : Reader α} {change : α → β} {text rest : List Char} {value : β} :
    Reads (change <$> reader) text value rest ↔
      ∃ found, Reads reader text found rest ∧ value = change found := by
  rw [← bind_pure_comp, reads_bind]
  simp only [reads_pure]
  exact ⟨fun ⟨found, _, h, hvalue, hrest⟩ => ⟨found, hrest ▸ h, hvalue⟩,
    fun ⟨found, h, hvalue⟩ => ⟨found, rest, h, hvalue, rfl⟩⟩

/-- The text can be looked at. -/
@[simp] theorem reads_get {text found rest : List Char} :
    Reads get text found rest ↔ found = text ∧ rest = text := by
  refine ⟨fun h => ?_, ?_⟩
  · cases h
    exact ⟨rfl, rfl⟩
  · rintro ⟨rfl, rfl⟩
    rfl

/-- What follows a look at the text may depend on the text. -/
@[simp] theorem reads_get_bind {next : List Char → Reader β} {text rest : List Char} {value : β} :
    Reads (get >>= next) text value rest ↔ Reads (next text) text value rest :=
  Iff.rfl

/-- The text can be replaced. -/
@[simp] theorem reads_set {left text rest : List Char} {found : PUnit} :
    Reads (set left) text found rest ↔ rest = left := by
  refine ⟨fun h => ?_, ?_⟩
  · cases h
    rfl
  · rintro rfl
    rfl

/-- Skipping blanks skips all of them. -/
@[simp] theorem reads_skipBlanks {text rest : List Char} {found : Unit} :
    Reads skipBlanks text found rest ↔ rest = text.dropWhile isBlank := by
  refine ⟨fun h => ?_, ?_⟩
  · cases h
    rfl
  · rintro rfl
    rfl

/-- One character is skipped. -/
@[simp] theorem reads_advance {text rest : List Char} {found : Unit} :
    Reads advance text found rest ↔ rest = text.tail := by
  refine ⟨fun h => ?_, ?_⟩
  · cases h
    rfl
  · rintro rfl
    rfl

/-- What follows blanks is read behind them. -/
@[simp] theorem reads_skipBlanks_bind {next : Unit → Reader β} {text rest : List Char} {value : β} :
    Reads (skipBlanks >>= next) text value rest ↔
      Reads (next ()) (text.dropWhile isBlank) value rest :=
  Iff.rfl

/-- What follows a skipped character is read behind it. -/
@[simp] theorem reads_advance_bind {next : Unit → Reader β} {text rest : List Char} {value : β} :
    Reads (advance >>= next) text value rest ↔ Reads (next ()) text.tail value rest :=
  Iff.rfl

/-- The next token begins behind the blanks, and is left there. -/
@[simp] theorem reads_peekToken {text rest : List Char} {c : Char} :
    Reads peekToken text c rest ↔
      ∃ later, text.dropWhile isBlank = c :: later ∧ rest = c :: later := by
  rw [peekToken, reads_skipBlanks_bind, reads_get_bind]
  cases text.dropWhile isBlank with
  | nil => simp
  | cons first later =>
    rw [reads_pure]
    refine ⟨?_, ?_⟩
    · rintro ⟨rfl, rfl⟩
      exact ⟨later, rfl, rfl⟩
    · rintro ⟨_, heq, rfl⟩
      cases heq
      exact ⟨rfl, rfl⟩

/-- A token that is no blank is seen where it is. -/
theorem reads_peekToken_cons {c : Char} (h : isBlank c = false) (later : List Char) :
    Reads peekToken (c :: later) c (c :: later) :=
  reads_peekToken.2 ⟨later, List.dropWhile_cons_of_neg (by simp [h]), rfl⟩

/-- The next character is taken off. -/
@[simp] theorem reads_next {text rest : List Char} {c : Char} :
    Reads next text c rest ↔ text = c :: rest := by
  rw [next, reads_get_bind]
  cases text with
  | nil => simp
  | cons first later => simp [reads_map, eq_comm, and_comm]

/-- A word is taken off. -/
@[simp] theorem reads_word {word text rest : List Char} {found : Unit} :
    Reads (Reader.word word) text found rest ↔ text = word ++ rest := by
  induction word generalizing text with
  | nil => simp [Reader.word, eq_comm]
  | cons c later ih =>
    simp only [Reader.word, reads_bind, reads_next]
    refine ⟨?_, ?_⟩
    · rintro ⟨first, middle, rfl, hword⟩
      split at hword
      · rename_i heq
        rw [ih.1 hword, heq]
        rfl
      · exact absurd hword not_reads_throw
    · rintro rfl
      exact ⟨c, later ++ rest, rfl, by rw [if_pos rfl]; exact ih.2 rfl⟩

/-- A word is taken off where it is. -/
theorem reads_word_append (word rest : List Char) : Reads (Reader.word word) (word ++ rest) () rest :=
  reads_word.2 rfl

/-- Digits are taken off up to the first other character. -/
@[simp] theorem reads_digits {text found rest : List Char} :
    Reads digits text found rest ↔
      found = text.takeWhile Char.isDigit ∧ rest = text.dropWhile Char.isDigit := by
  refine ⟨fun h => ?_, ?_⟩
  · cases h
    exact ⟨rfl, rfl⟩
  · rintro ⟨rfl, rfl⟩
    rfl

/-- A whole text is read when nothing but blanks is left. -/
theorem run_eq_ok_iff {reader : Reader α} {text : String} {value : α} :
    run reader text = .ok value ↔
      ∃ rest, Reads reader text.toList value rest ∧ rest.dropWhile isBlank = [] := by
  simp only [run, Reads]
  cases StateT.run reader text.toList with
  | error error => exact ⟨nofun, nofun⟩
  | ok found =>
    obtain ⟨first, middle⟩ := found
    refine ⟨fun h => ?_, ?_⟩
    · refine ⟨middle, ?_⟩
      by_cases hblank : (middle.dropWhile isBlank).isEmpty
      · simp_all [bind, Except.bind, pure, Except.pure]
      · simp_all [bind, Except.bind, throw, throwThe, MonadExceptOf.throw]
    · rintro ⟨rest, hread, hblank⟩
      cases hread
      simp [bind, Except.bind, pure, Except.pure, hblank]

end Reader

end EditorFormat.Json
