import EditorFormat.Proofs.Settings.Keys
import EditorFormat.Proofs.Settings.Storing

/-!
# One setting assigned

An assignment changes what settings hold under one key (`sameAt_assign`), and the page then shows
there the value that was handed back, in its normal form (`value_assign`). Assigning what is shown
changes nothing (`assign_value`), a later assignment replaces an earlier one of the same key
(`assign_assign`), and assignments of different keys do not depend on each other (`assign_comm`).
-/

namespace EditorFormat

open Json (Value Object DecodeError)

/-! ## The normal form of an answer -/

/-- The number of some decimal digits, perhaps after a plus sign. -/
def numeral : List Char → Nat
  | '+' :: digits => Nat.ofDigitChars 10 digits 0
  | digits => Nat.ofDigitChars 10 digits 0

/-- Digits are appended to a number as they are to its decimal form. -/
theorem ofDigitChars_of_appendDigits {n found : Nat} {text : List Char}
    (h : appendDigits n text = .ok found) : Nat.ofDigitChars 10 text n = found := by
  induction text generalizing n with
  | nil => exact Except.ok.inj h
  | cons c rest ih =>
    rw [Nat.ofDigitChars_cons]
    simp only [appendDigits] at h
    split at h
    · split at h
      · exact ih h
      · exact absurd h nofun
    · exact absurd h nofun

/-- A text that is read as a number is its numeral. -/
theorem numeral_of_numberOfText {text : List Char} {n : Nat} (h : numberOfText text = .ok n) :
    numeral text = n := by
  unfold numberOfText at h
  split at h
  · exact absurd h nofun
  · exact absurd h nofun
  · exact ofDigitChars_of_appendDigits h
  · rename_i hplus
    rw [← ofDigitChars_of_appendDigits h]
    unfold numeral
    split
    · exact absurd rfl (hplus _)
    · rfl

namespace OptionType

/-- A value as it is written again: a choice that is given as an object by its name, and any other
value as it is. -/
def written : OptionType → Json.Value → Json.Value
  | .choice _, .object ((name, _) :: _) => .string name
  | _, value => value

variable {type : OptionType} {value : Json.Value}

/-- What was read is written again. -/
theorem encode_of_decode {found : type.Value} (h : type.decode value = .ok found) :
    type.encode found = type.written value := by
  cases type with
  | flag =>
    cases value with
    | bool value => exact congrArg Json.Value.bool (Except.ok.inj h).symm
    | _ => exact absurd h nofun
  | width =>
    obtain ⟨n, hn, rfl⟩ := Json.bind_pure_eq_ok.1 h
    obtain ⟨rfl, hlt⟩ := Json.Value.decodeNat_eq_ok hn
    exact congrArg Json.Value.ofNat (UInt32.toNat_ofNat_of_lt hlt)
  | offset =>
    obtain ⟨n, hn, rfl⟩ := Json.bind_pure_eq_ok.1 h
    obtain ⟨rfl, hlt⟩ := Json.Value.decodeNat_eq_ok hn
    exact congrArg Json.Value.ofNat (UInt64.toNat_ofNat_of_lt hlt)
  | choice names =>
    have hchosen {name : String} (hname : choose names name = .ok found) : found.val = name := by
      unfold choose at hname
      split at hname
      · exact congrArg Subtype.val (Except.ok.inj hname).symm
      · exact absurd hname nofun
    cases value with
    | string name => exact congrArg Json.Value.string (hchosen h)
    | object members =>
      cases members with
      | nil => exact absurd h nofun
      | cons member others => exact congrArg Json.Value.string (hchosen (decodeChoice_object.1 h).1)
    | _ => exact absurd h nofun

/-- What was read is written again, and null when it is unset. -/
theorem written_of_decodeOptional {found : Option type.Value}
    (h : value.decodeOptional type.decode = .ok found) :
    (found.map type.encode).getD .null = type.written value := by
  cases found with
  | none =>
    obtain rfl := Settings.eq_null_of_decodeOptional h
    cases type <;> rfl
  | some found => exact encode_of_decode (Json.Value.decodeOptional_eq_ok h)

end OptionType

namespace SettingRow

/-- The normal form of a value that a control handed back. A text that answers the prompt for
a number is that number, or null where it leaves the end of the range open; a choice is its name. -/
def normal (row : SettingRow) (value : Value) : Value :=
  match row.control, value with
  | .number _, .string text =>
    if row.isUnbounded (Text.trim text) then .null else .ofNat (numeral (Text.trim text).toList)
  | .select _, .object ((name, _) :: _) => .string name
  | _, value => value

/-- The row of the log has a checkbox. -/
theorem control_of_opensLog {row : SettingRow} (h : row.key = .opensLogOnError) :
    row.control = .checkbox := by
  simp [control, h]

/-- A control without names to select from hands back the normal form. -/
theorem normal_of_answer {row : SettingRow} {value answer : Value}
    (hcontrol : ∀ names, row.control ≠ .select names) (h : row.answer value = .ok answer) :
    row.normal value = answer := by
  unfold SettingRow.answer at h
  unfold normal
  split at h
  · rename_i prompt text hnumber
    simp only [hnumber]
    by_cases hunbounded : row.isUnbounded (Text.trim text)
    · simp only [hunbounded, if_true] at h
      rw [if_pos hunbounded]
      exact Except.ok.inj h
    · simp only [hunbounded] at h
      rw [if_neg hunbounded]
      cases hread : numberOfText (Text.trim text).toList with
      | error error => simp [hread] at h
      | ok n =>
        simp only [hread] at h
        rw [numeral_of_numberOfText hread]
        exact Except.ok.inj h
  · rename_i hother
    split
    · exact absurd rfl (hother _ _ ‹_›)
    · exact absurd ‹_› (hcontrol _)
    · exact Except.ok.inj h

/-- What an option's control hands back is written in its normal form. -/
theorem written_of_answer {row : SettingRow} {key : OptionKey} (hkey : row.key = .option key)
    {value answer : Value} (h : row.answer value = .ok answer) :
    key.type.written answer = row.normal value := by
  cases htype : key.type with
  | choice names =>
    have hcontrol : row.control = .select names := by simp [control, hkey, htype]
    simp only [SettingRow.answer, hcontrol] at h
    obtain rfl := Except.ok.inj h
    simp only [normal, hcontrol]
    cases value with
    | object members => cases members <;> rfl
    | _ => rfl
  | flag | width | offset =>
    have hcontrol : ∀ names, row.control ≠ .select names := by simp [control, hkey, htype]
    exact (normal_of_answer hcontrol h).symm

end SettingRow

namespace Settings

/-! ## What is held under a key -/

section Held

variable {first second : Settings}

/-- Settings that hold the same under a key are written the same there. -/
theorem SameAt.find?_object {key : String} (h : SameAt key first second) (hfirst : first.Tidy)
    (hsecond : second.Tidy) : first.object.find? key = second.object.find? key := by
  by_cases hfield : key ∈ shape.names
  · obtain rfl | rfl : key = "version" ∨ key = opensLogName := by
      simpa [Json.Shape.names, shape] using hfield
    · rw [hfirst.find?_object_version, hsecond.find?_object_version, h.version rfl]
    · rw [hfirst.find?_object_opensLog, hsecond.find?_object_opensLog, h.opensLog rfl]
  · cases hkey : OptionKey.ofName? key with
    | none =>
      rw [hfirst.find?_object_unknown hfield hkey, hsecond.find?_object_unknown hfield hkey,
        h.unknown]
    | some option =>
      obtain rfl := OptionKey.name_of_ofName? hkey
      rw [hfirst.find?_object_name, hsecond.find?_object_name, h.option option rfl]

/-- Settings with the same value of a known option hold the same under its name. -/
theorem sameAt_name (hfirst : first.Tidy) (hsecond : second.Tidy) {key : OptionKey}
    (h : first.options.get key = second.options.get key) : SameAt key.name first second := by
  have hfield := Json.Shape.isNone_field?_iff.1 (isNone_field?_name key)
  refine ⟨fun hname => absurd (hname ▸ by decide) hfield,
    fun hname => absurd (hname ▸ by decide) hfield, fun other hname => ?_, ?_⟩
  · obtain rfl := OptionKey.name_injective key other hname
    exact h
  · rw [show key.name = (SettingKey.option key).name from rfl, hfirst.find?_extra_name,
      hsecond.find?_extra_name]

end Held

/-! ## Laws of assignments -/

section Laws

variable {settings next : Settings} {name : String} {value : Value}

/-- Settings are assigned that are read with an answer under the name of its row. -/
theorem assign_of_decode {row : SettingRow} {answer : Value} (hrow : settingRow? name = some row)
    (hanswer : row.answer value = .ok answer)
    (h : decode (.object (settings.object.put name answer)) = .ok next) :
    settings.assign name value = .ok next := by
  simp only [assign, hrow, hanswer, bind, Except.bind, h]
  rfl

/-- Whether an assignment succeeds depends on its name and value only. -/
theorem isOk_assign_iff (h : settings.Tidy) :
    (settings.assign name value).isOk ↔ ∃ row answer, settingRow? name = some row ∧
      row.answer value = .ok answer ∧ Fits (name, answer) := by
  constructor
  · intro hok
    obtain ⟨next, hassign⟩ := eq_ok_of_isOk hok
    obtain ⟨row, answer, hrow, hanswer, hdecode⟩ := assign_eq_ok hassign
    have hput := Entries.sorted_put (sorted_object settings) name answer
    have hfits := (isOk_decode_iff hput).1 (hdecode ▸ rfl)
    exact ⟨row, answer, hrow, hanswer,
      hfits _ (Entries.mem_of_find? (Entries.find?_put_self ..))⟩
  · rintro ⟨row, answer, hrow, hanswer, hfits⟩
    have hput := Entries.sorted_put (sorted_object settings) name answer
    have hall : ∀ member ∈ settings.object.put name answer, Fits member := by
      intro member hmember
      rcases Entries.mem_put hmember with rfl | hold
      · exact hfits
      · exact h.fits_object member hold
    obtain ⟨next, hdecode⟩ := eq_ok_of_isOk ((isOk_decode_iff hput).2 hall)
    rw [assign_of_decode hrow hanswer hdecode]
    rfl

/-- Settings stay tidy when one of them is assigned. -/
theorem tidy_of_assign (h : settings.assign name value = .ok next) : next.Tidy := by
  obtain ⟨_, _, -, -, hdecode⟩ := assign_eq_ok h
  exact tidy_of_decode hdecode

/-- An assignment leaves what is held under every other key. -/
theorem sameAt_assign (h : settings.Tidy) (hassign : settings.assign name value = .ok next)
    {key : String} (hkey : key ≠ name) : SameAt key next settings := by
  obtain ⟨row, answer, -, -, hdecode⟩ := assign_eq_ok hassign
  exact sameAt_of_find? (Entries.sorted_put (sorted_object settings) name answer)
    (sorted_object settings) hdecode h.decode_object (Entries.find?_put_of_ne _ _ hkey)

/-- An assignment leaves the version. -/
theorem version_assign (h : settings.Tidy) (hassign : settings.assign name value = .ok next) :
    next.version = settings.version := by
  obtain ⟨row, answer, hrow, -, -⟩ := assign_eq_ok hassign
  have hname := name_of_settingRow? hrow
  exact (sameAt_assign h hassign (hname ▸ version_ne_name row.key)).version rfl

/-- An assignment leaves the unknown options. -/
theorem extra_assign (h : settings.Tidy) (hassign : settings.assign name value = .ok next) :
    next.options.extra = settings.options.extra := by
  obtain ⟨row, answer, hrow, -, -⟩ := assign_eq_ok hassign
  obtain rfl := name_of_settingRow? hrow
  have htidy := tidy_of_assign hassign
  refine htidy.options.sorted.ext h.options.sorted fun key => ?_
  by_cases hkey : key = row.key.name
  · rw [hkey, htidy.find?_extra_name, h.find?_extra_name]
  · exact (sameAt_assign h hassign hkey).unknown

/-- What is held under the name of an assignment does not depend on the settings before it. -/
theorem sameAt_assign_self {others after : Settings}
    (h : settings.assign name value = .ok next) (hothers : others.assign name value = .ok after) :
    SameAt name next after := by
  obtain ⟨row, answer, hrow, hanswer, hdecode⟩ := assign_eq_ok h
  obtain ⟨row', answer', hrow', hanswer', hdecode'⟩ := assign_eq_ok hothers
  obtain rfl := Option.some.inj (hrow.symm.trans hrow')
  obtain rfl := Except.ok.inj (hanswer.symm.trans hanswer')
  refine sameAt_of_find? (Entries.sorted_put (sorted_object settings) name answer)
    (Entries.sorted_put (sorted_object others) name answer) hdecode hdecode' ?_
  rw [Entries.find?_put_self, Entries.find?_put_self]

/-- The row of the log shows whether it is shown on an error. -/
theorem value_of_opensLog (h : settings.Tidy) {row : SettingRow}
    (hkey : row.key = .opensLogOnError) : row.value settings = .bool settings.opensLogOnError := by
  rw [SettingRow.value, hkey]
  exact congrArg (Option.getD · _) h.find?_object_opensLog

/-- The row of an option shows its value, and null when it is unset. -/
theorem value_of_option (h : settings.Tidy) {row : SettingRow} {key : OptionKey}
    (hkey : row.key = .option key) :
    row.value settings = ((settings.options.get key).map key.type.encode).getD .null := by
  rw [SettingRow.value, hkey]
  exact congrArg (Option.getD · _) (h.find?_object_name key)

/-- After an assignment the page shows the value in its normal form. -/
theorem value_assign (h : settings.assign name value = .ok next) {row : SettingRow}
    (hrow : settingRow? name = some row) : row.value next = row.normal value := by
  obtain ⟨row', answer, hrow', hanswer, hdecode⟩ := assign_eq_ok h
  obtain rfl := Option.some.inj (hrow.symm.trans hrow')
  obtain ⟨hopens, -, hoption, -⟩ :=
    (decode_eq_ok_iff (Entries.sorted_put (sorted_object settings) name answer)).1 hdecode
  have htidy := tidy_of_decode hdecode
  have hname := name_of_settingRow? hrow
  cases hkey : row.key with
  | opensLogOnError =>
    rw [hkey] at hname
    obtain rfl : opensLogName = name := hname
    unfold opensLogIn memberOr at hopens
    rw [Entries.find?_put_self] at hopens
    rw [value_of_opensLog htidy hkey,
      SettingRow.normal_of_answer (by simp [SettingRow.control_of_opensLog hkey]) hanswer]
    cases answer with
    | bool shown => exact congrArg Value.bool (Except.ok.inj hopens).symm
    | _ => exact absurd hopens nofun
  | option key =>
    rw [hkey] at hname
    obtain rfl : key.name = name := hname
    have hread := hoption key
    unfold FormatOptions.readKey at hread
    rw [Entries.find?_put_self] at hread
    rw [value_of_option htidy hkey, OptionType.written_of_decodeOptional hread,
      SettingRow.written_of_answer hkey hanswer]

/-- Assigning the value that is shown changes nothing. -/
theorem assign_value (h : settings.Tidy) {row : SettingRow} (hrow : settingRow? name = some row) :
    settings.assign name (row.value settings) = .ok settings := by
  have hname := name_of_settingRow? hrow
  cases hkey : row.key with
  | opensLogOnError =>
    rw [hkey] at hname
    obtain rfl : opensLogName = name := hname
    have hanswer : row.answer (row.value settings) = .ok (row.value settings) := by
      simp [SettingRow.answer, SettingRow.control_of_opensLog hkey]
    refine assign_of_decode hrow hanswer ?_
    rw [value_of_opensLog h hkey, Entries.put_eq_self (sorted_object settings)
      h.find?_object_opensLog, h.decode_object]
  | option key =>
    rw [hkey] at hname
    obtain rfl : key.name = name := hname
    obtain ⟨next, hassign, hget⟩ := assign_written h key (settings.options.get key)
    rw [← value_of_option h hkey] at hassign
    have htidy := tidy_of_assign hassign
    rw [hassign]
    refine congrArg Except.ok (eq_of_sameAt htidy h fun other => ?_)
    by_cases hother : other = key.name
    · exact hother ▸ sameAt_name htidy h hget
    · exact sameAt_assign h hassign hother

/-- A later assignment replaces an earlier one of the same key. -/
theorem assign_assign (h : settings.Tidy) (hassign : settings.assign name value = .ok next)
    (later : Value) : next.assign name later = settings.assign name later := by
  have hput (answer : Value) : next.object.put name answer = settings.object.put name answer := by
    refine (Entries.sorted_put (sorted_object next) ..).ext
      (Entries.sorted_put (sorted_object settings) ..) fun key => ?_
    rw [Entries.find?_put, Entries.find?_put]
    split
    · rfl
    · rename_i hkey
      exact (sameAt_assign h hassign hkey).find?_object (tidy_of_assign hassign) h
  simp only [assign, hput]

/-- Assignments of different keys that succeed one after the other do so in the other order, with
the same settings in the end. -/
theorem assign_comm (h : settings.Tidy) {other : String} (hne : name ≠ other)
    {otherValue : Value} {both : Settings} (hnext : settings.assign name value = .ok next)
    (hboth : next.assign other otherValue = .ok both) :
    ∃ second, settings.assign other otherValue = .ok second ∧
      second.assign name value = .ok both := by
  have htidy := tidy_of_assign hnext
  have hotherOk : (next.assign other otherValue).isOk := by rw [hboth]; rfl
  obtain ⟨second, hsecond⟩ := eq_ok_of_isOk
    ((isOk_assign_iff h).2 ((isOk_assign_iff htidy).1 hotherOk))
  have hsecondTidy := tidy_of_assign hsecond
  have hnameOk : (settings.assign name value).isOk := by rw [hnext]; rfl
  obtain ⟨swapped, hswapped⟩ := eq_ok_of_isOk
    ((isOk_assign_iff hsecondTidy).2 ((isOk_assign_iff h).1 hnameOk))
  refine ⟨second, hsecond, hswapped.trans (congrArg Except.ok ?_)⟩
  refine eq_of_sameAt (tidy_of_assign hswapped) (tidy_of_assign hboth) fun key => ?_
  by_cases hname : key = name
  · subst hname
    exact (sameAt_assign_self hswapped hnext).trans (sameAt_assign htidy hboth hne).symm
  · refine (sameAt_assign hsecondTidy hswapped hname).trans ?_
    by_cases hother : key = other
    · subst hother
      exact sameAt_assign_self hsecond hboth
    · exact (sameAt_assign h hsecond hother).trans
        ((sameAt_assign h hnext hname).symm.trans (sameAt_assign htidy hboth hother).symm)

end Laws

end Settings

end EditorFormat
