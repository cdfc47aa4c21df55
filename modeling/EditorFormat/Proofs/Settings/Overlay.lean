import EditorFormat.Proofs.Settings.Wire

/-!
# Kept settings over the defaults

An object is read as settings exactly when each member fits its key (`isOk_decode_iff`), so whether
a kept member is taken over never depends on the others (`foldl_overlay`). Settings that were
written come back with the defaults in the place of unset options (`Tidy.ofPersisted?_object`).
-/

namespace EditorFormat.Settings

open Json (Value Object DecodeError)

/-! ## Members that fit -/

/-- The value of a member is one of its key, if settings know the key. -/
structure Fits (member : String × Value) : Prop where
  version : member.1 = "version" → (UInt32.ofNat <$> member.2.decodeWord32).isOk
  opensLog : member.1 = opensLogName → member.2.decodeBool.isOk
  option : ∀ key : OptionKey, member.1 = key.name →
    (member.2.decodeOptional key.type.decode).isOk

/-- A member is accepted when settings can be read from it alone. -/
def accepts (member : String × Value) : Bool :=
  (decode (.object [member])).isOk

section Reading

variable {members : Object}

/-- The member at a key is read when it is absent or its value can be. -/
theorem isOk_memberOr_iff {α : Type} {key : String} {default : α}
    {decode : Value → Except DecodeError α} :
    (memberOr members key default decode).isOk ↔
      ∀ value, members.find? key = some value → (decode value).isOk := by
  rw [memberOr]
  cases members.find? key with
  | none =>
    refine ⟨fun _ value h => ?_, fun _ => rfl⟩
    cases h
  | some value => exact ⟨fun h _ heq => Option.some.inj heq ▸ h, fun h => h value rfl⟩

/-- What members say of an option is read when it is absent or its value can be. -/
theorem isOk_readKey_iff {key : OptionKey} :
    (FormatOptions.readKey members key).isOk ↔
      ∀ value, members.find? key.name = some value →
        (value.decodeOptional key.type.decode).isOk :=
  isOk_memberOr_iff

/-- What can be read has been read as something. -/
theorem eq_ok_of_isOk {ε α : Type} {result : Except ε α} (h : result.isOk) :
    ∃ value, result = .ok value := by
  cases result with
  | error error => exact absurd h nofun
  | ok value => exact ⟨value, rfl⟩

/-- Settings are read exactly when every field and every option is. -/
theorem isOk_decode_iff_reads (h : members.Sorted) :
    (decode (.object members)).isOk ↔ (opensLogIn members).isOk ∧ (versionIn members).isOk ∧
      ∀ key, (FormatOptions.readKey members key).isOk := by
  constructor
  · intro hdecode
    obtain ⟨settings, hsettings⟩ := eq_ok_of_isOk hdecode
    obtain ⟨hopens, hversion, hoptions, -⟩ := (decode_eq_ok_iff h).1 hsettings
    rw [hopens, hversion]
    exact ⟨rfl, rfl, fun key => by rw [hoptions]; rfl⟩
  · rintro ⟨hopens, hversion, hoptions⟩
    obtain ⟨opensLog, hopens⟩ := eq_ok_of_isOk hopens
    obtain ⟨version, hversion⟩ := eq_ok_of_isOk hversion
    have hread : decode (.object members) = .ok ⟨version, opensLog,
        fun key => (FormatOptions.readKey members key).toOption.getD none,
        FormatOptions.unknownMembers (optionsIn members)⟩ := by
      refine (decode_eq_ok_iff h).2 ⟨hopens, hversion, fun key => ?_, rfl⟩
      obtain ⟨value, hvalue⟩ := eq_ok_of_isOk (hoptions key)
      simp only [hvalue]
      rfl
    rw [hread]
    rfl

/-- Settings are read exactly when every member fits. -/
theorem isOk_decode_iff (h : members.Sorted) :
    (decode (.object members)).isOk ↔ ∀ member ∈ members, Fits member := by
  rw [isOk_decode_iff_reads h, opensLogIn, versionIn, isOk_memberOr_iff, isOk_memberOr_iff]
  simp only [isOk_readKey_iff, Entries.find?_eq_some_iff h.nodup_keys]
  constructor
  · rintro ⟨hopens, hversion, hoptions⟩ ⟨key, value⟩ hmember
    refine ⟨?_, ?_, ?_⟩
    · rintro rfl
      exact hversion value hmember
    · rintro rfl
      exact hopens value hmember
    · rintro option rfl
      exact hoptions option value hmember
  · intro hfits
    exact ⟨fun value hmember => (hfits _ hmember).opensLog rfl,
      fun value hmember => (hfits _ hmember).version rfl,
      fun key value hmember => (hfits _ hmember).option key rfl⟩

/-- A member is accepted exactly when it fits. -/
theorem accepts_iff {member : String × Value} : accepts member ↔ Fits member := by
  rw [accepts, isOk_decode_iff (List.pairwise_singleton ..)]
  exact List.forall_mem_singleton

end Reading

/-! ## Taking over members -/

/-- Insert members one after the other. -/
def putAll (members : List (String × Value)) (entries : Object) : Object :=
  members.foldl (fun entries member => entries.put member.1 member.2) entries

section Overlay

variable {accepted : Object}

/-- A member is taken over exactly when it is accepted alone. -/
theorem overlay_eq (h : accepted.Sorted) (hfits : ∀ member ∈ accepted, Fits member)
    (member : String × Value) :
    overlay accepted member =
      if accepts member then accepted.put member.1 member.2 else accepted := by
  have hcandidate : (decode (.object (accepted.put member.1 member.2))).isOk ↔ accepts member := by
    rw [isOk_decode_iff (Entries.sorted_put h _ _), accepts_iff]
    constructor
    · exact fun hall => hall member (Entries.mem_of_find? (Entries.find?_put_self ..))
    · intro hmember other hother
      rcases Entries.mem_put hother with rfl | hmem
      · exact hmember
      · exact hfits other hmem
  simp only [overlay, hcandidate]

/-- Of kept members those are taken over that are accepted alone. -/
theorem foldl_overlay (h : accepted.Sorted) (hfits : ∀ member ∈ accepted, Fits member)
    (kept : List (String × Value)) :
    kept.foldl overlay accepted = putAll (kept.filter accepts) accepted := by
  -- What was taken over so far fits, so the next member is judged as if it were alone.
  induction kept generalizing accepted with
  | nil => rfl
  | cons member rest ih =>
    rw [List.foldl_cons, overlay_eq h hfits]
    by_cases hmember : accepts member
    · rw [if_pos hmember, List.filter_cons_of_pos hmember]
      refine ih (Entries.sorted_put h _ _) fun other hother => ?_
      rcases Entries.mem_put hother with rfl | hmem
      · exact accepts_iff.1 hmember
      · exact hfits other hmem
    · rw [if_neg hmember, List.filter_cons_of_neg hmember]
      exact ih h hfits

end Overlay

/-- The accepted members of an object over the defaults. -/
def overlaid (kept : Object) : Object :=
  putAll (kept.filter accepts) initial.object

/-- The members of written settings fit. -/
theorem Tidy.fits_object {settings : Settings} (h : settings.Tidy) :
    ∀ member ∈ settings.object, Fits member := by
  refine (isOk_decode_iff (sorted_object settings)).1 ?_
  rw [h.decode_object]
  rfl

/-- Whatever was looked at before, members that fit were taken over, in order. -/
theorem foldl_overlay_initial (visited : List (String × Value)) :
    visited.foldl overlay initial.object = overlaid visited :=
  foldl_overlay (sorted_object initial) tidy_initial.fits_object visited

/-- The current version is the integer that is written for it, and nothing else. -/
theorem isCurrent_iff {version : Option Value} :
    isCurrent version ↔ version = some (.ofNat currentVersion.toNat) := by
  constructor
  · intro h
    cases version with
    | none => exact absurd h nofun
    | some value =>
      cases value with
      | int n => rw [of_decide_eq_true h]; rfl
      | _ => exact absurd h nofun
  · rintro rfl
    rfl

section Persisted

variable {kept : Object}

/-- Accepted members over the defaults are in order. -/
theorem sorted_overlaid (kept : Object) : (overlaid kept).Sorted :=
  Entries.sorted_foldl_put _ (sorted_object initial)

/-- What is found among accepted members over the defaults. -/
theorem find?_overlaid (h : kept.Sorted) (key : String) :
    (overlaid kept).find? key =
      (Entries.find? (kept.filter accepts) key).or (initial.object.find? key) := by
  have haccepted : Entries.Sorted (kept.filter accepts) := h.filter _
  rw [overlaid, putAll, Entries.find?_foldl_put, Entries.find?_reverse haccepted.nodup_keys]

/-- An object holds settings when it is of the current version, and then they are those of its
accepted members over the defaults. -/
theorem ofPersisted?_object_iff {settings : Settings} :
    ofPersisted? (some (.object kept)) = some settings ↔
      isCurrent (Entries.find? kept "version") ∧ decode (.object (overlaid kept)) = .ok settings := by
  rw [ofPersisted?, foldl_overlay_initial]
  by_cases hcurrent : isCurrent (Entries.find? kept "version")
  · rw [if_pos hcurrent]
    cases decode (.object (overlaid kept)) <;> simp [hcurrent, Except.toOption]
  · rw [if_neg hcurrent]
    simp [hcurrent]

/-- The version of the accepted members is the current one. -/
theorem find?_overlaid_version (h : kept.Sorted)
    (hcurrent : isCurrent (kept.find? "version")) :
    (overlaid kept).find? "version" = some (.ofNat currentVersion.toNat) := by
  rw [find?_overlaid h, tidy_initial.find?_object_version]
  cases hfound : Entries.find? (kept.filter accepts) "version" with
  | none => rfl
  | some value =>
    have hmember := (List.mem_filter.1 (Entries.mem_of_find? hfound)).1
    rw [isCurrent_iff, Entries.find?_of_mem h.nodup_keys hmember] at hcurrent
    exact hcurrent

end Persisted

/-! ## Defaults of unset options -/

/-- The settings with the default of every option that is unset. -/
def withDefaults (settings : Settings) : Settings :=
  { settings with options :=
    { settings.options with get := fun key =>
        (settings.options.get key).or (defaultOptions.get key) } }

/-- Every option is set that has a default. -/
def Complete (settings : Settings) : Prop :=
  ∀ key, key ≠ .rangeEnd → (settings.options.get key).isSome

/-- The only option without a default is the end of the range. -/
theorem complete_initial : initial.Complete := by
  intro key hkey
  cases key <;> first | rfl | exact absurd rfl hkey

/-- Settings keep all but their unset options. -/
theorem withDefaults_eq_iff {settings : Settings} :
    settings.withDefaults = settings ↔ settings.Complete := by
  have hdefault (key : OptionKey) :
      (settings.options.get key).or (defaultOptions.get key) = settings.options.get key ↔
        (key ≠ .rangeEnd → (settings.options.get key).isSome) := by
    cases hkey : settings.options.get key with
    | some value => simp
    | none => cases key <;> simp [defaultOptions]
  simp only [Complete, ← hdefault]
  obtain ⟨version, opensLog, get, extra⟩ := settings
  constructor
  · intro h key
    exact congrFun (congrArg (fun settings => settings.options.get) h) key
  · intro h
    exact congrArg (fun get => (⟨version, opensLog, get, extra⟩ : Settings)) (funext h)

namespace Tidy

variable {settings : Settings} (h : settings.Tidy)

include h

/-- Settings stay tidy with defaults. -/
theorem withDefaults : settings.withDefaults.Tidy :=
  ⟨⟨h.options.sorted, h.options.unknown⟩, h.apart⟩

/-- Written settings lie over the written defaults as settings with defaults are written. -/
theorem overlaid_object : overlaid settings.object = settings.withDefaults.object := by
  have hall : settings.object.filter accepts = settings.object :=
    List.filter_eq_self.2 fun member hmember => accepts_iff.2 (h.fits_object member hmember)
  refine (sorted_overlaid _).ext (sorted_object _) fun key => ?_
  rw [find?_overlaid (sorted_object settings), hall]
  -- Written fields hide the defaults, and an option does so where it is set.
  by_cases hfield : key ∈ shape.names
  · obtain rfl | rfl : key = "version" ∨ key = opensLogName := by
      simpa [Json.Shape.names, shape] using hfield
    · rw [h.find?_object_version, h.withDefaults.find?_object_version]
      rfl
    · rw [h.find?_object_opensLog, h.withDefaults.find?_object_opensLog]
      rfl
  · cases hkey : OptionKey.ofName? key with
    | none =>
      rw [h.find?_object_unknown hfield hkey, h.withDefaults.find?_object_unknown hfield hkey,
        tidy_initial.find?_object_unknown hfield hkey]
      exact Option.or_none
    | some option =>
      obtain rfl := OptionKey.name_of_ofName? hkey
      rw [h.find?_object_name, h.withDefaults.find?_object_name, tidy_initial.find?_object_name]
      exact Option.map_or.symm

/-- Written settings of the current version are taken up with the default of every option that is
unset. -/
theorem ofPersisted?_object (hversion : settings.version = currentVersion) :
    ofPersisted? (some (.object settings.object)) = some settings.withDefaults := by
  refine ofPersisted?_object_iff.2 ⟨?_, ?_⟩
  · rw [h.find?_object_version, hversion]
    rfl
  · rw [h.overlaid_object, h.withDefaults.decode_object]

end Tidy

end EditorFormat.Settings
