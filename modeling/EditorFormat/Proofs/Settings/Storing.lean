import EditorFormat.Proofs.Json.Readback
import EditorFormat.Proofs.Settings.Overlay

/-!
# Settings that are stored

Settings that are taken up from a file are `Storable`, up to the floats among their unknown options
(`storable_of_ofPersisted?`), and they stay so under every assignment (`Storable.assign`). The text
of storable settings is read back (`Storable.read_text`).
-/

namespace EditorFormat.Settings

open Json (Value Object)
open Json.Reader (ReadsBack depthLimit)

/-- Settings of the current version that are tidy, and whose unknown options are values that can be
written, with floats as required. -/
structure Storable (float : Float → Prop) (settings : Settings) : Prop extends settings.Tidy where
  version : settings.version = currentVersion
  extra : ∀ member ∈ settings.options.extra, member.2.Bounded float (depthLimit - 1)

section Members

variable {float : Float → Prop}

/-- A number of 64 bits is an integer of a JSON text. -/
theorem isInteger_of_lt {n : Nat} (h : n < UInt64.size) : Json.IsInteger n := by
  constructor
  · exact Int.le_trans (by decide) (Int.natCast_nonneg n)
  · exact Int.ofNat_lt.2 h

/-- A written value of an option is no container. -/
theorem bounded_encode (type : OptionType) (value : type.Value) :
    (type.encode value).Bounded float (depthLimit - 1) := by
  cases type with
  | flag => trivial
  | width => exact isInteger_of_lt (Nat.lt_trans value.toNat_lt (by decide))
  | offset => exact isInteger_of_lt value.toNat_lt
  | choice names => trivial

/-- The written members of storable settings can be read back. -/
theorem Storable.bounded_members {settings : Settings} (h : settings.Storable float) :
    ∀ member ∈ settings.members, member.2.Bounded float (depthLimit - 1) := by
  intro member hmember
  rw [members, List.mem_cons, List.mem_cons, FormatOptions.members, List.mem_append] at hmember
  rcases hmember with rfl | rfl | hknown | hextra
  · exact bounded_encode .width settings.version
  · trivial
  · obtain ⟨key, -, hkey⟩ := List.mem_filterMap.1 hknown
    obtain ⟨value, -, rfl⟩ := Option.map_eq_some_iff.1 hkey
    exact bounded_encode key.type value
  · exact h.extra member hextra

/-- So can those of the written object. -/
theorem Storable.bounded_object {settings : Settings} (h : settings.Storable float) :
    ∀ member ∈ settings.object, member.2.Bounded float (depthLimit - 1) := by
  intro member hmember
  rcases Entries.mem_foldl_put hmember with hwritten | hnone
  · exact h.bounded_members member hwritten
  · exact absurd hnone List.not_mem_nil

end Members

/-- The text of storable settings is read back. -/
theorem Storable.read_text {settings : Settings} (h : settings.Storable ReadsBack) :
    Value.read settings.text = .ok settings.encode :=
  Json.Reader.read_prettyObject h.bounded_members

/-- Settings are storable when the floats among their unknown options are read back. -/
theorem Storable.of_floats {settings : Settings} (h : settings.Storable fun _ => True)
    (hfloats : ∀ member ∈ settings.options.extra, ∀ x, member.2.HasFloat x → ReadsBack x) :
    settings.Storable ReadsBack :=
  ⟨h.toTidy, h.version, fun member hmember =>
    (h.extra member hmember).of_floats (hfloats member hmember)⟩

section Reading

variable {float : Float → Prop} {members : Object} {settings : Settings}

/-- An unknown option of settings is a member that is neither a field nor an option. -/
theorem mem_of_mem_extra (hsorted : members.Sorted)
    (h : decode (.object members) = .ok settings) {member : String × Value}
    (hmember : member ∈ settings.options.extra) :
    member ∈ members ∧ member.1 ∉ shape.names ∧ OptionKey.ofName? member.1 = none := by
  obtain ⟨-, -, -, hextra⟩ := (decode_eq_ok_iff hsorted).1 h
  rw [hextra, FormatOptions.unknownMembers, optionsIn, List.mem_filter, List.mem_filter] at hmember
  obtain ⟨⟨hmem, hfield⟩, hunknown⟩ := hmember
  exact ⟨hmem, Json.Shape.isNone_field?_iff.1 hfield, Option.isNone_iff_eq_none.1 hunknown⟩

/-- The version is read from the member of its key. -/
theorem version_of_decode (hsorted : members.Sorted)
    (h : decode (.object members) = .ok settings) {version : UInt32}
    (hversion : members.find? "version" = some (.ofNat version.toNat)) :
    settings.version = version := by
  obtain ⟨-, hread, -⟩ := (decode_eq_ok_iff hsorted).1 h
  rw [versionIn, memberOr, hversion] at hread
  exact (Except.ok.inj ((OptionType.decode_encode .width version).symm.trans hread)).symm

/-- The settings of a user who chose nothing are storable. -/
theorem storable_initial : initial.Storable float :=
  ⟨tidy_initial, rfl, nofun⟩

/-- Settings that are taken up from an object with bounded members are storable. -/
theorem storable_of_ofPersisted? {kept : Object} (hsorted : kept.Sorted)
    (hkept : ∀ member ∈ kept, member.2.Bounded float (depthLimit - 1))
    (h : ofPersisted? (some (.object kept)) = some settings) : settings.Storable float := by
  obtain ⟨hcurrent, hdecode⟩ := ofPersisted?_object_iff.1 h
  have hoverlaid := sorted_overlaid kept
  refine ⟨tidy_of_decode hdecode, ?_, fun member hmember => ?_⟩
  · exact version_of_decode hoverlaid hdecode (find?_overlaid_version hsorted hcurrent)
  · rcases Entries.mem_foldl_put (mem_of_mem_extra hoverlaid hdecode hmember).1 with haccepted | hmem
    · exact hkept member (List.mem_filter.1 haccepted).1
    · exact storable_initial.bounded_object member hmem

/-- Settings that are taken up from a text are storable, up to their floats. -/
theorem storable_of_text {text : String}
    (h : ofPersisted? (Value.read text).toOption = some settings) :
    settings.Storable fun _ => True := by
  cases hvalue : Value.read text with
  | error error => rw [hvalue] at h; exact absurd h nofun
  | ok value =>
    rw [hvalue] at h
    cases value with
    | object members =>
      obtain ⟨hsorted, hbounded⟩ := Value.bounded_of_read hvalue
      exact storable_of_ofPersisted? hsorted hbounded h
    | _ => exact absurd h nofun

end Reading

/-! ## Assignments -/

section Assigning

variable {settings next : Settings} {name : String} {value : Value}

/-- A row of the page is found by its name. -/
theorem name_of_settingRow? {row : SettingRow} (h : settingRow? name = some row) :
    row.key.name = name := by
  simpa using List.find?_some h

/-- No two rows of the page have one name. -/
theorem settingRow?_of_mem {row : SettingRow} (h : row ∈ settingsPage) :
    settingRow? row.key.name = some row := by
  have hnodup : (settingsPage.map fun row => row.key.name).Nodup := by decide
  obtain ⟨before, after, hpage⟩ := List.append_of_mem h
  rw [hpage, List.map_append, List.nodup_append] at hnodup
  rw [settingRow?, List.find?_eq_some_iff_append]
  refine ⟨decide_eq_true rfl, before, after, hpage, fun other hother => ?_⟩
  have hne := hnodup.2.2 _ (List.mem_map_of_mem hother) _ List.mem_cons_self
  simpa using hne

/-- An assignment puts an answer under the name of a row. -/
theorem assign_eq_ok (h : settings.assign name value = .ok next) :
    ∃ row answer, settingRow? name = some row ∧ row.answer value = .ok answer ∧
      decode (.object (settings.object.put name answer)) = .ok next := by
  rw [assign] at h
  cases hrow : settingRow? name with
  | none => rw [hrow] at h; exact absurd h nofun
  | some row =>
    simp only [hrow] at h
    cases hanswer : row.answer value with
    | error error => rw [hanswer] at h; exact absurd h nofun
    | ok answer =>
      rw [hanswer] at h
      simp only [bind, Except.bind] at h
      refine ⟨row, answer, rfl, hanswer, ?_⟩
      cases hread : decode (.object (settings.object.put name answer)) with
      | error error => rw [hread] at h; exact absurd h nofun
      | ok found => rw [hread] at h; exact congrArg Except.ok (Except.ok.inj h)

/-- A row has the name of the field or of an option. -/
theorem name_cases (key : SettingKey) :
    key.name = opensLogName ∨ ∃ option : OptionKey, key.name = option.name := by
  cases key with
  | opensLogOnError => exact .inl rfl
  | option option => exact .inr ⟨option, rfl⟩

/-- No row has the name of the version. -/
theorem version_ne_name (key : SettingKey) : "version" ≠ key.name := by
  rcases name_cases key with hname | ⟨option, hname⟩
  · rw [hname]; decide
  · rw [hname]; cases option <;> decide

/-- No unknown option has the name of a row. -/
theorem Tidy.find?_extra_name (h : settings.Tidy) (key : SettingKey) :
    settings.options.extra.find? key.name = none := by
  rcases name_cases key with hname | ⟨option, hname⟩
  · rw [hname]
    exact h.apart _ (by decide)
  · rw [hname]
    refine Entries.find?_eq_none_iff.2 fun hkey => ?_
    exact absurd (h.options.unknown _ hkey) (by simp)

/-- Storable settings stay storable when one of them is assigned. -/
theorem Storable.assign {float : Float → Prop} (h : settings.Storable float)
    (hassign : settings.assign name value = .ok next) : next.Storable float := by
  obtain ⟨row, answer, hrow, -, hdecode⟩ := assign_eq_ok hassign
  have hput := Entries.sorted_put (sorted_object settings) name answer
  have hname := name_of_settingRow? hrow
  refine ⟨tidy_of_decode hdecode, ?_, fun member hmember => ?_⟩
  · refine version_of_decode hput hdecode ?_
    rw [Entries.find?_put_of_ne _ _ (hname ▸ version_ne_name row.key), h.find?_object_version,
      h.version]
  · obtain ⟨hmem, hfield, hunknown⟩ := mem_of_mem_extra hput hdecode hmember
    rcases Entries.mem_put hmem with rfl | hold
    · -- The member that was put is a field or an option, and so no unknown one.
      rcases hname ▸ name_cases row.key with hopens | ⟨option, hoption⟩
      · exact absurd (hopens ▸ (by decide : opensLogName ∈ shape.names)) hfield
      · rw [hoption, OptionKey.ofName?_name] at hunknown
        exact absurd hunknown nofun
    · exact h.bounded_object member hold

/-- Null is put only for null, or for an answer that unsets the end of the range. -/
theorem eq_null_of_answer {row : SettingRow} (h : row.answer value = .ok .null) :
    value = .null ∨ row.key = .option .rangeEnd := by
  unfold SettingRow.answer at h
  split at h
  · rename_i prompt text _
    by_cases hunbounded : row.isUnbounded (Text.trim text)
    · rw [SettingRow.isUnbounded, Bool.and_eq_true] at hunbounded
      exact .inr (of_decide_eq_true hunbounded.1)
    · simp only [hunbounded] at h
      cases hnumber : numberOfText (Text.trim text).toList with
      | ok n => simp [hnumber, Value.ofNat] at h
      | error error => simp [hnumber] at h
  · exact .inl (Except.ok.inj h)

/-- Nothing is read only of null. -/
theorem eq_null_of_decodeOptional {α : Type} {decode : Value → Except Json.DecodeError α}
    (h : value.decodeOptional decode = .ok none) : value = .null := by
  have hsome : some <$> decode value ≠ .ok none := by
    cases decode value <;> exact nofun
  cases value with
  | null => rfl
  | _ => exact absurd h hsome

/-- An assignment of another value than null leaves all options set that have a default. -/
theorem Complete.assign (h : settings.Complete) (htidy : settings.Tidy) (hvalue : value ≠ .null)
    (hassign : settings.assign name value = .ok next) : next.Complete := by
  obtain ⟨row, answer, hrow, hanswer, hdecode⟩ := assign_eq_ok hassign
  obtain ⟨-, -, hread, -⟩ :=
    (decode_eq_ok_iff (Entries.sorted_put (sorted_object settings) name answer)).1 hdecode
  intro key hkey
  have hget := hread key
  rw [FormatOptions.readKey] at hget
  by_cases hname : key.name = name
  · rw [← hname, Entries.find?_put_self] at hget
    have hanswered : answer ≠ .null := by
      rintro rfl
      rcases eq_null_of_answer hanswer with hnull | hrange
      · exact hvalue hnull
      · have hrowName := name_of_settingRow? hrow
        rw [hrange, ← hname] at hrowName
        exact hkey (OptionKey.name_injective .rangeEnd key hrowName).symm
    cases hfound : next.options.get key with
    | some found => rfl
    | none =>
      rw [hfound] at hget
      exact absurd (eq_null_of_decodeOptional hget) hanswered
  · rw [Entries.find?_put_of_ne _ _ hname, htidy.find?_object_name] at hget
    obtain ⟨found, hfound⟩ := Option.isSome_iff_exists.1 (h key hkey)
    simp only [hfound, Option.map_some, OptionType.decodeOptional_encode] at hget
    rw [← Except.ok.inj hget]
    rfl

/-- The written value of an option, or null when it is unset, is read as it is. -/
theorem decodeOptional_written (type : OptionType) (found : Option type.Value) :
    ((found.map type.encode).getD .null).decodeOptional type.decode = .ok found := by
  cases found with
  | none => rfl
  | some value => exact type.decodeOptional_encode value

/-- The written value of an option is no text that answers the prompt for a number. -/
theorem answer_written {row : SettingRow} {key : OptionKey} (hrow : row.key = .option key)
    (found : Option key.Value) :
    row.answer ((found.map key.type.encode).getD .null) =
      .ok ((found.map key.type.encode).getD .null) := by
  have hnumber : ∀ type : OptionType, type = .width ∨ type = .offset → ∀ found : Option type.Value,
      ∀ text, (found.map type.encode).getD .null ≠ .string text := by
    rintro type (rfl | rfl) (_ | value) text <;> exact nofun
  unfold SettingRow.answer
  split
  · rename_i prompt text hcontrol htext
    refine absurd htext (hnumber key.type ?_ found text)
    rw [SettingRow.control, hrow] at hcontrol
    cases htype : key.type <;> simp_all
  · rfl

/-- An option can be given every value it can have, and it can be unset. -/
theorem assign_written (h : settings.Tidy) (key : OptionKey) (found : Option key.Value) :
    ∃ next, settings.assign key.name ((found.map key.type.encode).getD .null) = .ok next ∧
      next.options.get key = found := by
  generalize hvalue : (found.map key.type.encode).getD .null = value
  have hput := Entries.sorted_put (sorted_object settings) key.name value
  have hread : value.decodeOptional key.type.decode = .ok found :=
    hvalue ▸ decodeOptional_written key.type found
  have hfits : ∀ member ∈ settings.object.put key.name value, Fits member := by
    intro member hmember
    rcases Entries.mem_put hmember with rfl | hold
    · have hfield := Json.Shape.isNone_field?_iff.1 (isNone_field?_name key)
      refine ⟨fun hname => absurd ((show key.name = "version" from hname) ▸ by decide) hfield,
        fun hname => absurd ((show key.name = opensLogName from hname) ▸ by decide) hfield,
        fun other hname => ?_⟩
      obtain rfl := OptionKey.name_injective key other hname
      simp only [hread]
      rfl
    · exact h.fits_object member hold
  obtain ⟨next, hnext⟩ := eq_ok_of_isOk ((isOk_decode_iff hput).2 hfits)
  obtain ⟨row, hrow, hkey⟩ : ∃ row, settingRow? key.name = some row ∧ row.key = .option key := by
    cases key <;> exact ⟨_, rfl, rfl⟩
  have hanswer : row.answer value = .ok value := hvalue ▸ answer_written hkey found
  refine ⟨next, ?_, ?_⟩
  · rw [Settings.assign, hrow]
    simp only [hanswer, bind, Except.bind, hnext]
    rfl
  · obtain ⟨-, -, hoptions, -⟩ := (decode_eq_ok_iff hput).1 hnext
    have hget := hoptions key
    rw [FormatOptions.readKey, Entries.find?_put_self] at hget
    exact Except.ok.inj (hget.symm.trans hread)

end Assigning

end EditorFormat.Settings
