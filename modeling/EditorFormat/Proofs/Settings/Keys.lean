import EditorFormat.Proofs.Settings.Overlay

/-!
# Settings key by key

What settings hold under a key is read from the member of that key alone (`sameAt_of_find?`), and
settings that hold the same under every key are the same (`eq_of_sameAt`). Kept settings are
therefore the defaults with every member that fits in the place of its key, whatever else is kept
and in whatever order it is looked at (`kept_members_overlay_defaults`).
-/

namespace EditorFormat.Settings

open Json (Value Object DecodeError)

/-- Two settings hold the same under a key: the same version or answer of the log where the key is
one of these, the same value where it is a known option, and the same unknown option. -/
structure SameAt (key : String) (first second : Settings) : Prop where
  version : key = "version" → first.version = second.version
  opensLog : key = opensLogName → first.opensLogOnError = second.opensLogOnError
  option : ∀ option : OptionKey, key = option.name →
    first.options.get option = second.options.get option
  unknown : first.options.extra.find? key = second.options.extra.find? key

namespace SameAt

variable {key : String} {first second third : Settings}

theorem symm (h : SameAt key first second) : SameAt key second first :=
  ⟨fun hkey => (h.version hkey).symm, fun hkey => (h.opensLog hkey).symm,
    fun option hkey => (h.option option hkey).symm, h.unknown.symm⟩

theorem trans (h : SameAt key first second) (hnext : SameAt key second third) :
    SameAt key first third :=
  ⟨fun hkey => (h.version hkey).trans (hnext.version hkey),
    fun hkey => (h.opensLog hkey).trans (hnext.opensLog hkey),
    fun option hkey => (h.option option hkey).trans (hnext.option option hkey),
    h.unknown.trans hnext.unknown⟩

end SameAt

/-- Settings that hold the same under every key are the same. -/
theorem eq_of_sameAt {first second : Settings} (hfirst : first.Tidy) (hsecond : second.Tidy)
    (h : ∀ key, SameAt key first second) : first = second := by
  have hoptions : first.options = second.options :=
    FormatOptions.eq_of_get (fun option => (h option.name).option option rfl)
      (hfirst.options.sorted.ext hsecond.options.sorted fun key => (h key).unknown)
  have hversion := (h "version").version rfl
  have hopens := (h opensLogName).opensLog rfl
  obtain ⟨version, opensLog, options⟩ := first
  obtain ⟨otherVersion, otherOpens, otherOptions⟩ := second
  cases hversion
  cases hopens
  cases hoptions
  rfl

/-- What settings hold under a key is read from the member of that key. -/
theorem sameAt_of_find? {members others : Object} {first second : Settings} {key : String}
    (hmembers : members.Sorted) (hothers : others.Sorted)
    (hfirst : decode (.object members) = .ok first)
    (hsecond : decode (.object others) = .ok second)
    (h : members.find? key = others.find? key) : SameAt key first second := by
  obtain ⟨hopens, hversion, hoption, hextra⟩ := (decode_eq_ok_iff hmembers).1 hfirst
  obtain ⟨hopens', hversion', hoption', hextra'⟩ := (decode_eq_ok_iff hothers).1 hsecond
  refine ⟨?_, ?_, ?_, ?_⟩
  · rintro rfl
    rw [versionIn, memberOr, h] at hversion
    exact Except.ok.inj (hversion.symm.trans hversion')
  · rintro rfl
    rw [opensLogIn, memberOr, h] at hopens
    exact Except.ok.inj (hopens.symm.trans hopens')
  · rintro option rfl
    have hread := hoption option
    rw [FormatOptions.readKey, h] at hread
    exact Except.ok.inj (hread.symm.trans (hoption' option))
  · have hunknown (members : Object) : Entries.find? (FormatOptions.unknownMembers members) key =
        if (OptionKey.ofName? key).isNone then members.find? key else none :=
      Entries.find?_filter members (fun key => (OptionKey.ofName? key).isNone) key
    rw [hextra, hextra', hunknown, hunknown, find?_optionsIn, find?_optionsIn, h]

/-! ## Kept settings -/

section Kept

variable {kept : Object}

/-- A kept member is found over the defaults when it is accepted, and otherwise the default of its
key is. -/
theorem find?_overlaid_of_mem (h : kept.Sorted) {member : String × Value}
    (hmember : member ∈ kept) :
    (overlaid kept).find? member.1 =
      if accepts member then some member.2 else initial.object.find? member.1 := by
  have haccepted : Entries.Sorted (kept.filter accepts) := h.filter _
  rw [find?_overlaid h]
  by_cases haccepts : accepts member
  · rw [if_pos haccepts,
      Entries.find?_of_mem haccepted.nodup_keys (List.mem_filter.2 ⟨hmember, haccepts⟩),
      Option.some_or]
  · -- The key has no other member that could be accepted.
    have hnone : Entries.find? (kept.filter accepts) member.1 = none := by
      refine Option.eq_none_iff_forall_ne_some.2 fun value hvalue => haccepts ?_
      obtain ⟨hmem, hother⟩ := List.mem_filter.1 (Entries.mem_of_find? hvalue)
      have hsame := (Entries.find?_of_mem h.nodup_keys hmem).symm.trans
        (Entries.find?_of_mem h.nodup_keys hmember)
      rwa [Option.some.inj hsame] at hother
    rw [if_neg haccepts, hnone, Option.none_or]

/-- A key that is not kept has its default. -/
theorem find?_overlaid_of_absent (h : kept.Sorted) {key : String}
    (habsent : kept.find? key = none) :
    (overlaid kept).find? key = initial.object.find? key := by
  have hnone : Entries.find? (kept.filter accepts) key = none := by
    refine Option.eq_none_iff_forall_ne_some.2 fun value hvalue => ?_
    have hmem := (List.mem_filter.1 (Entries.mem_of_find? hvalue)).1
    exact absurd (habsent.symm.trans (Entries.find?_of_mem h.nodup_keys hmem)) nofun
  rw [find?_overlaid h, hnone, Option.none_or]

/-- All members over the defaults fit. -/
theorem fits_overlaid (kept : Object) : ∀ member ∈ overlaid kept, Fits member := by
  intro member hmember
  rcases Entries.mem_foldl_put hmember with haccepted | hdefault
  · exact accepts_iff.1 (List.mem_filter.1 haccepted).2
  · exact tidy_initial.fits_object member hdefault

/-- An object of the current version always holds settings. -/
theorem exists_ofPersisted? (h : isCurrent (kept.find? "version")) :
    ∃ settings, ofPersisted? (some (.object kept)) = some settings := by
  obtain ⟨settings, hsettings⟩ :=
    eq_ok_of_isOk ((isOk_decode_iff (sorted_overlaid kept)).2 (fits_overlaid kept))
  exact ⟨settings, ofPersisted?_object_iff.2 ⟨h, hsettings⟩⟩

/-- In whatever order the members are looked at, the same ones are taken over. -/
theorem overlaid_of_perm {visited : List (String × Value)} (h : kept.Sorted)
    (hperm : visited.Perm kept) : overlaid visited = overlaid kept := by
  have hfilter := hperm.filter accepts
  have hnodup : (Entries.keys (kept.filter accepts)).Nodup :=
    Entries.Sorted.nodup_keys (h.filter accepts)
  have hvisited : (Entries.keys (visited.filter accepts)).Nodup :=
    (hfilter.map Prod.fst).nodup_iff.2 hnodup
  refine (sorted_overlaid visited).ext (sorted_overlaid kept) fun key => ?_
  rw [overlaid, overlaid, putAll, putAll, Entries.find?_foldl_put, Entries.find?_foldl_put,
    Entries.find?_reverse hvisited, Entries.find?_reverse hnodup,
    Entries.find?_of_perm hfilter hvisited]

/-- Next to members that fit, a member is taken over exactly when it fits. -/
theorem mem_overlay_iff {accepted : Object} (h : accepted.Sorted)
    (hfits : ∀ member ∈ accepted, Fits member) {member : String × Value} :
    member ∈ overlay accepted member ↔ accepts member := by
  rw [overlay_eq h hfits]
  split
  · rename_i haccepts
    exact ⟨fun _ => haccepts, fun _ => Entries.mem_of_find? (Entries.find?_put_self ..)⟩
  · rename_i hrejected
    exact ⟨fun hmem => absurd (accepts_iff.2 (hfits member hmem)) hrejected,
      fun haccepts => absurd haccepts hrejected⟩

/-- The object of a member and the current version. -/
def besideVersion (member : String × Value) : Object :=
  Entries.ofPairs [("version", .ofNat currentVersion.toNat), member]

/-- A member is taken over that is kept beside nothing but the version. -/
def TakenAlone (member : String × Value) : Prop :=
  member ∈ (besideVersion member).foldl overlay initial.object

/-- A member is taken over alone when settings can be read from it. -/
theorem takenAlone_iff {member : String × Value} : TakenAlone member ↔ accepts member := by
  have hsorted : (besideVersion member).Sorted := Entries.sorted_ofPairs _
  have hmember : member ∈ besideVersion member := by
    refine Entries.mem_of_find? ?_
    rw [besideVersion, Entries.find?_ofPairs]
    exact if_pos rfl
  rw [TakenAlone, foldl_overlay_initial]
  constructor
  · exact fun hmem => accepts_iff.2 (fits_overlaid _ member hmem)
  · intro haccepts
    refine Entries.mem_of_find? ?_
    rw [find?_overlaid_of_mem hsorted hmember, if_pos haccepts]

/-- Settings are the defaults with some kept members over them. Each member that is taken over alone
gives its key the value that is read from it; one that is not, or is absent, leaves its key the
default. The order in which the members are looked at does not matter. -/
structure Overlays (kept : Object) (settings : Settings) : Prop where
  accepted : ∀ member ∈ kept, TakenAlone member →
    ∃ read, decode (.object [member]) = .ok read ∧ SameAt member.1 settings read
  rejected : ∀ member ∈ kept, ¬ TakenAlone member → SameAt member.1 settings initial
  absent : ∀ key, kept.find? key = none → SameAt key settings initial
  anyOrder : ∀ visited : List (String × Value), visited.Perm kept →
    decode (.object (visited.foldl overlay initial.object)) = .ok settings

/-- Settings that are taken up from an object overlay the defaults with its members. -/
theorem overlays_of_ofPersisted? (h : kept.Sorted) {settings : Settings}
    (hsettings : ofPersisted? (some (.object kept)) = some settings) : Overlays kept settings := by
  obtain ⟨-, hdecode⟩ := ofPersisted?_object_iff.1 hsettings
  have hsorted := sorted_overlaid kept
  have hdefault {key : String} (hkey : (overlaid kept).find? key = initial.object.find? key) :
      SameAt key settings initial :=
    sameAt_of_find? hsorted (sorted_object initial) hdecode tidy_initial.decode_object hkey
  refine ⟨fun member hmember htaken => ?_, fun member hmember hrejected => ?_,
    fun key habsent => ?_, fun visited hperm => ?_⟩
  · have haccepts := takenAlone_iff.1 htaken
    obtain ⟨read, hread⟩ := eq_ok_of_isOk haccepts
    refine ⟨read, hread, sameAt_of_find? hsorted (List.pairwise_singleton ..) hdecode hread ?_⟩
    rw [find?_overlaid_of_mem h hmember, if_pos haccepts]
    exact (if_pos rfl).symm
  · refine hdefault ?_
    rw [find?_overlaid_of_mem h hmember, if_neg (mt takenAlone_iff.2 hrejected)]
  · exact hdefault (find?_overlaid_of_absent h habsent)
  · rw [foldl_overlay_initial, overlaid_of_perm h hperm]
    exact hdecode

end Kept

/-- Nothing is taken up when nothing is kept, or no object, or one whose version is not the integer
3. -/
theorem ofPersisted?_eq_none_iff {kept : Option Value} : ofPersisted? kept = none ↔
    ∀ members, kept = some (.object members) → Entries.find? members "version" ≠ some (.int 3) := by
  constructor
  · rintro hnone members rfl hversion
    obtain ⟨settings, hsettings⟩ := exists_ofPersisted? (isCurrent_iff.2 hversion)
    exact absurd (hnone.symm.trans hsettings) nofun
  · intro hversion
    refine Option.eq_none_iff_forall_ne_some.2 fun settings hsettings => ?_
    match kept, hsettings with
    | some (.object members), hsettings =>
      exact hversion members rfl (isCurrent_iff.1 (ofPersisted?_object_iff.1 hsettings).1)

/-- Nothing is taken up when nothing is kept, or no object, or one whose version is not the integer
3. Otherwise the settings are the defaults with the kept members over them, each judged on its own:
whatever was looked at before it, a member is taken over exactly when it would be alone. -/
theorem kept_members_overlay_defaults {kept : Option Value}
    (hkept : ∀ members, kept = some (.object members) → Entries.Sorted members) :
    (ofPersisted? kept = none ↔
      ∀ members, kept = some (.object members) → Entries.find? members "version" ≠ some (.int 3)) ∧
    (∀ members settings, kept = some (.object members) → ofPersisted? kept = some settings →
      Overlays members settings) ∧
    ∀ (before : List (String × Value)) (member : String × Value),
      member ∈ overlay (before.foldl overlay initial.object) member ↔ TakenAlone member := by
  refine ⟨ofPersisted?_eq_none_iff, ?_, fun before member => ?_⟩
  · rintro members settings rfl hsettings
    exact overlays_of_ofPersisted? (hkept members rfl) hsettings
  · rw [foldl_overlay_initial, takenAlone_iff]
    exact mem_overlay_iff (sorted_overlaid before) (fits_overlaid before)

/-- An object with an unknown option, a text where a number is wanted, and an option that fits. -/
def mixed : Object :=
  [("custom", .null), ("printWidth", .string "100"), ("semi", .bool false), ("version", .int 3)]

/-- The option that fits and the unknown one are taken up, and the text is not. -/
theorem kept_members_overlay_defaults_mixed :
    (∀ members, some (Value.object mixed) = some (.object members) → Entries.Sorted members) ∧
      ∃ settings, ofPersisted? (some (.object mixed)) = some settings ∧
        settings.options.get .semi = some false ∧
        settings.options.get .printWidth = some (80 : UInt32) ∧
        settings.options.extra.find? "custom" = some .null := by
  have hsorted : ∀ members, some (Value.object mixed) = some (.object members) →
      Entries.Sorted members := by
    rintro _ ⟨⟩
    rw [Entries.Sorted, mixed]
    decide
  obtain ⟨hnone, hoverlays, -⟩ := kept_members_overlay_defaults hsorted
  cases hsettings : ofPersisted? (some (.object mixed)) with
  | none => exact absurd rfl (hnone.1 hsettings mixed rfl)
  | some settings =>
    have hmixed := hoverlays mixed settings rfl hsettings
    obtain ⟨semi, hsemi, hsame⟩ :=
      hmixed.accepted ("semi", .bool false) (by simp [mixed]) (takenAlone_iff.2 rfl)
    obtain ⟨custom, hcustom, hkept⟩ :=
      hmixed.accepted ("custom", .null) (by simp [mixed]) (takenAlone_iff.2 rfl)
    have hwidth := hmixed.rejected ("printWidth", .string "100") (by simp [mixed])
      (mt takenAlone_iff.1 nofun)
    cases hsemi
    cases hcustom
    exact ⟨hsorted, settings, rfl, hsame.option .semi rfl, hwidth.option .printWidth rfl,
      hkept.unknown⟩

end EditorFormat.Settings
