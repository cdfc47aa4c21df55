import EditorFormat.Proofs.Options.Wire
import EditorFormat.Settings.Page

/-!
# Settings as an object

Settings are read from an object field by field and option by option (`decode_eq_ok_iff`). Settings
that were read (`Tidy`) are written so that every key is found again (`Tidy.find?_object_name` and
those beside it), and reading what was written gives them back (`Tidy.decode_object`).
-/

namespace EditorFormat

open Json (Value Object Shape DecodeError bind_eq_ok bind_pure_eq_ok)

namespace Settings

/-- The members of the fields. -/
def own (settings : Settings) : List (String × Value) :=
  [("version", .ofNat settings.version.toNat), (opensLogName, .bool settings.opensLogOnError)]

/-- The unknown options are in order, and none of them has the key of an option or of a field. -/
structure Tidy (settings : Settings) : Prop where
  options : settings.options.Tidy
  apart : ∀ key ∈ shape.names, settings.options.extra.find? key = none

/-- The member at a key, or a default when it is absent. -/
def memberOr {α : Type} (members : Object) (key : String) (default : α)
    (decode : Value → Except DecodeError α) : Except DecodeError α :=
  match members.find? key with
  | none => .ok default
  | some value => decode value

/-- The version among members. -/
def versionIn (members : Object) : Except DecodeError UInt32 :=
  memberOr members "version" 0 fun value => UInt32.ofNat <$> value.decodeWord32

/-- Whether members say that the log is shown on an error. -/
def opensLogIn (members : Object) : Except DecodeError Bool :=
  memberOr members opensLogName true Value.decodeBool

/-- The members that are no fields. -/
def optionsIn (members : Object) : Object :=
  members.filter fun member => (shape.field? member.1).isNone

/-! ## Reading -/

section Reading

variable {members : Object}

/-- The fields are read by their keys. -/
theorem read_fields (h : members.Sorted) :
    shape.read (0, true) (.object members) = do
      let opensLog ← opensLogIn members
      let version ← versionIn members
      return (version, opensLog) := by
  have hopens : shape.take members (0, true) opensLogName =
      (opensLogIn members).map fun opensLog => (0, opensLog) := by
    rw [opensLogIn, memberOr]
    cases hfind : members.find? opensLogName with
    | none => exact Shape.take_absent hfind _
    | some value =>
      refine (Shape.take_eq_store rfl hfind _).trans ?_
      cases value <;> rfl
  have hversion (opensLog : Bool) : shape.take members (0, opensLog) "version" =
      (versionIn members).map fun version => (version, opensLog) := by
    rw [versionIn, memberOr]
    cases hfind : members.find? "version" with
    | none => exact Shape.take_absent hfind _
    | some value =>
      refine (Shape.take_eq_store rfl hfind _).trans ?_
      show (value.decodeWord32 >>= fun found => pure (UInt32.ofNat found, opensLog)) =
        (UInt32.ofNat <$> value.decodeWord32).map _
      cases value.decodeWord32 <;> rfl
  have hnames : [opensLogName, "version"].Pairwise (· < ·) := by decide
  rw [Shape.read_object h hnames (List.Perm.swap ..) (by simp [shape]), List.foldlM_cons, hopens]
  cases opensLogIn members with
  | error error => rfl
  | ok opensLog =>
    show [_].foldlM (shape.take members) (0, opensLog) = _
    rw [List.foldlM_cons, hversion]
    cases versionIn members <;> rfl

/-- Settings are read from the fields, and then from the options. -/
theorem decode_object_eq (h : members.Sorted) :
    decode (.object members) = do
      let opensLog ← opensLogIn members
      let version ← versionIn members
      let options ← FormatOptions.ofMembers (optionsIn members)
      return ⟨version, opensLog, options⟩ := by
  rw [decode, FormatOptions.decodeBeside, read_fields h, optionsIn]
  cases opensLogIn members with
  | error error => rfl
  | ok opensLog =>
    cases versionIn members with
    | error error => rfl
    | ok version =>
      cases FormatOptions.ofMembers (members.filter fun member => (shape.field? member.1).isNone)
      <;> rfl

/-- No option has the name of a field. -/
theorem isNone_field?_name (key : OptionKey) : (shape.field? key.name).isNone := by
  cases key <;> decide

/-- What is found among the members that are no fields. -/
theorem find?_optionsIn (members : Object) (key : String) :
    (optionsIn members).find? key = if (shape.field? key).isNone then members.find? key else none :=
  Entries.find?_filter members (fun key => (shape.field? key).isNone) key

/-- Settings are read field by field and option by option, and the members that are left are kept
as they are. -/
theorem decode_eq_ok_iff (h : members.Sorted) {settings : Settings} :
    decode (.object members) = .ok settings ↔
      opensLogIn members = .ok settings.opensLogOnError ∧
        versionIn members = .ok settings.version ∧
        (∀ key, FormatOptions.readKey members key = .ok (settings.options.get key)) ∧
        settings.options.extra = FormatOptions.unknownMembers (optionsIn members) := by
  have hoptions : Entries.Sorted (optionsIn members) := h.filter _
  have hunknown : Entries.Sorted (FormatOptions.unknownMembers (optionsIn members)) :=
    hoptions.filter _
  have hkey (key : OptionKey) :
      FormatOptions.readKey (optionsIn members) key = FormatOptions.readKey members key := by
    rw [FormatOptions.readKey, FormatOptions.readKey, find?_optionsIn, if_pos (isNone_field?_name key)]
  have hread : FormatOptions.ofMembers (optionsIn members) = .ok settings.options ↔ _ :=
    FormatOptions.ofMembers_eq_ok_iff hoptions.nodup_keys
  simp only [hkey, hunknown.ofPairs_eq] at hread
  rw [← hread, decode_object_eq h]
  obtain ⟨version, opensLog, options⟩ := settings
  constructor
  · intro h
    obtain ⟨opens, hopens, h⟩ := bind_eq_ok.1 h
    obtain ⟨found, hversion, h⟩ := bind_eq_ok.1 h
    obtain ⟨rest, hrest, h⟩ := bind_pure_eq_ok.1 h
    cases h
    exact ⟨hopens, hversion, hrest⟩
  · rintro ⟨hopens, hversion, hrest⟩
    rw [hopens, hversion, hrest]
    rfl

/-- Settings that were read are tidy. -/
theorem tidy_of_decode {value : Value} {settings : Settings} (h : decode value = .ok settings) :
    settings.Tidy := by
  obtain ⟨⟨fields, options⟩, hbeside, rfl⟩ := bind_pure_eq_ok.1 h
  exact ⟨FormatOptions.tidy_of_decodeBeside hbeside, fun _ =>
    FormatOptions.extra_of_decodeBeside hbeside⟩

end Reading

/-! ## Writing -/

section Writing

variable {settings : Settings}

/-- The settings of a user who chose nothing are tidy. -/
theorem tidy_initial : initial.Tidy :=
  ⟨⟨Entries.sorted_nil, nofun⟩, fun _ _ => rfl⟩

/-- The members of the fields have the keys of the fields. -/
theorem mem_names_of_own : ∀ member ∈ settings.own, member.1 ∈ shape.names := by
  simp [own, shape, Shape.names]

/-- The written object is in order. -/
theorem sorted_object (settings : Settings) : settings.object.Sorted :=
  Entries.sorted_ofPairs _

namespace Tidy

variable (h : settings.Tidy)

include h

/-- What is found in the written object: an option, or a field. -/
theorem find?_object (key : String) :
    settings.object.find? key =
      (Entries.find? settings.options.members key).or (Entries.find? settings.own.reverse key) :=
  FormatOptions.find?_beside h.options settings.own key

/-- No option is written with the key of a field. -/
theorem find?_members_field {key : String} (hkey : key ∈ shape.names) :
    Entries.find? settings.options.members key = none := by
  have hunknown : OptionKey.ofName? key = none := by
    revert key
    decide
  rw [FormatOptions.find?_members_unknown _ hunknown, h.apart key hkey]

/-- The written object holds the version. -/
theorem find?_object_version :
    settings.object.find? "version" = some (.ofNat settings.version.toNat) := by
  rw [h.find?_object, h.find?_members_field (by decide)]
  rfl

/-- The written object says whether the log is shown on an error. -/
theorem find?_object_opensLog :
    settings.object.find? opensLogName = some (.bool settings.opensLogOnError) := by
  rw [h.find?_object, h.find?_members_field (by decide)]
  rfl

/-- The written object holds no other key than the options. -/
theorem find?_object_of_notMem {key : String} (hkey : key ∉ shape.names) :
    settings.object.find? key = Entries.find? settings.options.members key := by
  have habsent : Entries.find? settings.own.reverse key = none := by
    refine Entries.find?_reverse_eq_none_iff.2 (Entries.find?_eq_none_iff.2 fun hmem => hkey ?_)
    obtain ⟨member, hmember, rfl⟩ := List.mem_map.1 hmem
    exact mem_names_of_own member hmember
  rw [h.find?_object, habsent, Option.or_none]

/-- The written object holds the options that are set. -/
theorem find?_object_name (key : OptionKey) :
    settings.object.find? key.name = (settings.options.get key).map key.type.encode := by
  have hkey : key.name ∉ shape.names := Shape.isNone_field?_iff.1 (isNone_field?_name key)
  rw [h.find?_object_of_notMem hkey, h.options.find?_members_name]

/-- The written object holds the unknown options. -/
theorem find?_object_unknown {key : String} (hfield : key ∉ shape.names)
    (hkey : OptionKey.ofName? key = none) :
    settings.object.find? key = settings.options.extra.find? key := by
  rw [h.find?_object_of_notMem hfield, FormatOptions.find?_members_unknown _ hkey]

/-- Settings are read back from the written object. -/
theorem decode_object : decode (.object settings.object) = .ok settings := by
  have hfields : shape.read (0, true) (.object (Entries.ofPairs settings.own)) =
      .ok (settings.version, settings.opensLogOnError) := by
    have hopens : opensLogIn (Entries.ofPairs settings.own) = .ok settings.opensLogOnError := by
      rw [opensLogIn, memberOr, Entries.find?_ofPairs]
      rfl
    have hversion : versionIn (Entries.ofPairs settings.own) = .ok settings.version := by
      rw [versionIn, memberOr, Entries.find?_ofPairs]
      exact OptionType.decode_encode .width settings.version
    rw [read_fields (Entries.sorted_ofPairs _), hopens, hversion]
    rfl
  have hobject : settings.object = Entries.ofPairs (settings.own ++ settings.options.members) := rfl
  rw [decode, hobject, FormatOptions.decodeBeside_object h.options mem_names_of_own
    (fun _ => h.find?_members_field), hfields]
  rfl

end Tidy

end Writing

end Settings

end EditorFormat
