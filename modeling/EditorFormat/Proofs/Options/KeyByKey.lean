import EditorFormat.Proofs.Options.Wire
import EditorFormat.Proofs.Settings.Assigning

/-!
# Options key by key

Whether an object is read as options is decided by its known keys, each on its own: the value of
such a key is null or fits the type of the key (`OptionType.Fits`). Writing the options that were
read gives the object back with the null members of known keys left out and with each choice by
its name (`writtenMembers`). Members of unknown keys are neither judged nor changed.
-/

namespace EditorFormat

open Json (Value Object)

/-! ## Entries that are changed or left out -/

namespace Entries

variable {κ α β : Type} {entries : Entries κ α}

/-- Entries with the same keys and other values, less those that have no other value. -/
def filterMapValues (change : κ → α → Option β) (entries : Entries κ α) : Entries κ β :=
  entries.filterMap fun entry => (change entry.1 entry.2).map fun value => (entry.1, value)

/-- Sorted entries stay sorted. -/
theorem Sorted.filterMapValues [LT κ] (h : entries.Sorted) (change : κ → α → Option β) :
    (entries.filterMapValues change).Sorted := by
  refine List.Pairwise.filterMap _ (fun first second hlt => ?_) h
  intro changed hchanged later hlater
  obtain ⟨_, -, rfl⟩ := Option.map_eq_some_iff.1 hchanged
  obtain ⟨_, -, rfl⟩ := Option.map_eq_some_iff.1 hlater
  exact hlt

variable [DecidableEq κ]

/-- When no key occurs twice, what is found is the changed value. -/
theorem find?_filterMapValues (hnodup : entries.keys.Nodup) (change : κ → α → Option β) (key : κ) :
    (entries.filterMapValues change).find? key = (entries.find? key).bind (change key) := by
  induction entries with
  | nil => rfl
  | cons entry rest ih =>
    obtain ⟨other, value⟩ := entry
    obtain ⟨hfirst, hrest⟩ := List.nodup_cons.1 hnodup
    have hstep : filterMapValues change ((other, value) :: rest) =
        ((change other value).map fun changed => (other, changed)).toList ++
          filterMapValues change rest := by
      rw [filterMapValues, List.filterMap_cons]
      cases change other value <;> rfl
    rw [hstep, find?_append, ih hrest]
    by_cases hkey : other = key
    · subst hkey
      -- the key is not found again in the rest
      rw [find?_eq_none_iff.2 hfirst, find?, if_pos rfl, Option.bind_none, Option.or_none,
        Option.bind_some]
      cases change other value <;> simp [find?]
    · rw [find?, if_neg hkey]
      cases change other value <;> simp [find?, hkey]

end Entries

/-! ## Values that fit -/

namespace OptionType

/-- The values of a type: booleans, integers of 32 or of 64 bits, and names, each written as a
string or as the only key of an object with a null value. -/
inductive Fits : OptionType → Json.Value → Prop where
  | flag (value : Bool) : Fits .flag (.bool value)
  | width {n : Nat} (h : n < UInt32.size) : Fits .width (.int n)
  | offset {n : Nat} (h : n < UInt64.size) : Fits .offset (.int n)
  | name {names : List String} {name : String} (h : name ∈ names) :
      Fits (.choice names) (.string name)
  | variant {names : List String} {name : String} (h : name ∈ names) :
      Fits (.choice names) (.object [(name, .null)])

variable {type : OptionType} {value : Json.Value}

/-- A name is chosen when it is one of the names. -/
theorem exists_choose_iff {names : List String} {name : String} :
    (∃ chosen, choose names name = .ok chosen) ↔ name ∈ names := by
  unfold choose
  split
  · rename_i h
    exact ⟨fun _ => h, fun _ => ⟨_, rfl⟩⟩
  · rename_i h
    exact ⟨fun ⟨_, hchosen⟩ => absurd hchosen (by simp), fun hmem => absurd hmem h⟩

/-- A value that is read fits its type. -/
theorem fits_of_decode {found : type.Value} (h : type.decode value = .ok found) :
    type.Fits value := by
  cases type with
  | flag =>
    cases value with
    | bool value => exact .flag value
    | _ => cases h
  | width =>
    obtain ⟨n, hn, -⟩ := Json.bind_pure_eq_ok.1 h
    obtain ⟨rfl, hlt⟩ := Json.Value.decodeNat_eq_ok hn
    exact .width hlt
  | offset =>
    obtain ⟨n, hn, -⟩ := Json.bind_pure_eq_ok.1 h
    obtain ⟨rfl, hlt⟩ := Json.Value.decodeNat_eq_ok hn
    exact .offset hlt
  | choice names =>
    cases value with
    | string name => exact .name (exists_choose_iff.1 ⟨found, h⟩)
    | object members =>
      cases members with
      | nil => cases h
      | cons member others =>
        obtain ⟨name, value⟩ := member
        obtain ⟨hchosen, rfl, rfl⟩ := decodeChoice_object.1 h
        exact .variant (exists_choose_iff.1 ⟨found, hchosen⟩)
    | _ => cases h

/-- A value that fits its type is read. -/
theorem Fits.decode (h : type.Fits value) : ∃ found, type.decode value = .ok found := by
  cases h with
  | flag value => exact ⟨value, rfl⟩
  | @width n hlt =>
    have hread := Json.Value.decodeNat_ofNat hlt .word32
    exact ⟨UInt32.ofNat n, congrArg (UInt32.ofNat <$> ·) hread⟩
  | @offset n hlt =>
    have hread := Json.Value.decodeNat_ofNat hlt .size
    exact ⟨UInt64.ofNat n, congrArg (UInt64.ofNat <$> ·) hread⟩
  | name hname => exact exists_choose_iff.2 hname
  | variant hname =>
    obtain ⟨found, hfound⟩ := exists_choose_iff.2 hname
    exact ⟨found, decodeChoice_object.2 ⟨hfound, rfl, rfl⟩⟩

/-- Null fits no type. -/
theorem Fits.ne_null (h : type.Fits value) : value ≠ .null := by
  rintro rfl
  cases h

/-- Where null is allowed, a value is read when it is null or fits. -/
theorem exists_decodeOptional_iff :
    (∃ found, value.decodeOptional type.decode = .ok found) ↔ value = .null ∨ type.Fits value := by
  constructor
  · rintro ⟨found, hfound⟩
    cases found with
    | none => exact .inl (Settings.eq_null_of_decodeOptional hfound)
    | some found => exact .inr (fits_of_decode (Json.Value.decodeOptional_eq_ok hfound))
  · rintro (rfl | h)
    · exact ⟨none, rfl⟩
    · obtain ⟨found, hfound⟩ := h.decode
      cases value with
      | null => exact absurd rfl h.ne_null
      | _ => exact ⟨some found, congrArg (some <$> ·) hfound⟩

end OptionType

namespace FormatOptions

/-! ## Objects that are read and written -/

/-- The value that is written for a member that was read. Null members of known keys have none, and
values of unknown keys stay as they are. -/
def writtenAt (name : String) (value : Value) : Option Value :=
  match OptionKey.ofName? name, value with
  | none, value => some value
  | some _, .null => none
  | some key, value => some (key.type.written value)

/-- The members that are written for an object that was read. -/
def writtenMembers (members : Object) : Object :=
  members.filterMapValues writtenAt

/-- A value of an unknown key is written as it is. -/
theorem writtenAt_unknown {name : String} (h : OptionKey.ofName? name = none) (value : Value) :
    writtenAt name value = some value := by
  simp only [writtenAt, h]

/-- What was read of a known key is written for it. -/
theorem map_encode_of_decodeOptional {key : OptionKey} {value : Value} {found : Option key.Value}
    (h : value.decodeOptional key.type.decode = .ok found) :
    found.map key.type.encode = writtenAt key.name value := by
  cases found with
  | none =>
    obtain rfl := Settings.eq_null_of_decodeOptional h
    simp only [writtenAt, OptionKey.ofName?_name, Option.map_none]
  | some found =>
    have hread := Value.decodeOptional_eq_ok h
    rw [Option.map_some, OptionType.encode_of_decode hread]
    cases value with
    | null => exact absurd rfl (OptionType.fits_of_decode hread).ne_null
    | _ => simp only [writtenAt, OptionKey.ofName?_name]

section Objects

variable {members : Object} {options : FormatOptions}

/-- An object is read when each of its known keys is. -/
theorem exists_decode_iff (h : members.Sorted) :
    (∃ options, decode (.object members) = .ok options) ↔
      ∀ key, ∃ found, readKey members key = .ok found := by
  constructor
  · rintro ⟨options, hoptions⟩ key
    exact ⟨_, ((ofMembers_eq_ok_iff h.nodup_keys).1 hoptions).1 key⟩
  · intro hkeys
    refine ⟨⟨fun key => (readKey members key).toOption.getD none, _⟩,
      (ofMembers_eq_ok_iff h.nodup_keys).2 ⟨fun key => ?_, rfl⟩⟩
    obtain ⟨found, hfound⟩ := hkeys key
    simp only [hfound]
    rfl

/-- A known key is read when it is absent or its value is null or fits. -/
theorem exists_readKey_iff {key : OptionKey} :
    (∃ found, readKey members key = .ok found) ↔
      ∀ value, members.find? key.name = some value → value = .null ∨ key.type.Fits value := by
  rw [readKey]
  cases members.find? key.name with
  | none => exact ⟨fun _ _ heq => absurd heq (by simp), fun _ => ⟨none, rfl⟩⟩
  | some value =>
    refine OptionType.exists_decodeOptional_iff.trans ⟨fun h _ heq => ?_, fun h => h value rfl⟩
    exact Option.some.inj heq ▸ h

/-- Under each key that is found which is written for the member of the key. -/
theorem find?_members_of_decode (h : members.Sorted)
    (hoptions : decode (.object members) = .ok options) (name : String) :
    Entries.find? options.members name = (members.find? name).bind (writtenAt name) := by
  obtain ⟨hkeys, hextra⟩ := (ofMembers_eq_ok_iff h.nodup_keys).1 hoptions
  cases hname : OptionKey.ofName? name with
  | none =>
    have hunknown : Entries.Sorted (unknownMembers members) := h.filter _
    rw [find?_members_unknown options hname, hextra, hunknown.ofPairs_eq, unknownMembers,
      Entries.find?_filter members fun name => (OptionKey.ofName? name).isNone,
      if_pos (by rw [hname]; rfl)]
    cases members.find? name with
    | none => rfl
    | some value => exact (writtenAt_unknown hname value).symm
  | some key =>
    obtain rfl := OptionKey.name_of_ofName? hname
    have hkey := hkeys key
    rw [(tidy_of_ofMembers hoptions).find?_members_name]
    rw [readKey] at hkey
    cases hvalue : members.find? key.name with
    | none =>
      rw [hvalue] at hkey
      rw [← Except.ok.inj hkey]
      rfl
    | some value =>
      rw [hvalue] at hkey
      exact map_encode_of_decodeOptional hkey

/-- What is written of options that were read is what is written for the members. -/
theorem encode_of_decode (h : members.Sorted) (hoptions : decode (.object members) = .ok options) :
    options.encode = .object (writtenMembers members) := by
  have hnodup := (tidy_of_ofMembers hoptions).nodup_members
  have hwritten : (writtenMembers members).Sorted := h.filterMapValues writtenAt
  refine congrArg Value.object ((Entries.sorted_ofPairs _).ext hwritten fun name => ?_)
  rw [Entries.find?_ofPairs, Entries.find?_reverse hnodup, find?_members_of_decode h hoptions,
    writtenMembers, Entries.find?_filterMapValues h.nodup_keys]

end Objects

/-- Options are read from an object exactly when the value of each known key that it has is null or
fits the type of the key, whatever else is in the object. Written again, they are the object
without the null members of known keys and with each choice by its name; an unknown key has its
whole value again. -/
theorem known_keys_decide {members : Object} (h : members.Sorted) :
    ((∃ options, decode (.object members) = .ok options) ↔
      ∀ (key : OptionKey) (value : Value), members.find? key.name = some value →
        value = .null ∨ key.type.Fits value) ∧
    ∀ options, decode (.object members) = .ok options →
      options.encode = .object (writtenMembers members) ∧
      ∀ name, OptionKey.ofName? name = none →
        options.encode.member? name = members.find? name := by
  refine ⟨?_, fun options hoptions => ⟨encode_of_decode h hoptions, fun name hname => ?_⟩⟩
  · rw [exists_decode_iff h]
    exact forall_congr' fun key => exists_readKey_iff
  · rw [encode_of_decode h hoptions, writtenMembers]
    refine (Entries.find?_filterMapValues h.nodup_keys writtenAt name).trans ?_
    cases members.find? name with
    | none => rfl
    | some value => exact writtenAt_unknown hname value

/-- An object with a choice that is given as an object, an unknown option, a width and an option
that is unset. -/
def assorted : Object :=
  [("endOfLine", .object [("lf", .null)]), ("plugins", .array [.string "svelte", .null]),
    ("printWidth", .int 100), ("semi", .null)]

/-- The choice is written by its name, and the option that is unset is left out. -/
theorem known_keys_decide_assorted :
    assorted.Sorted ∧ ∃ options, decode (.object assorted) = .ok options ∧
      options.encode = .object [("endOfLine", .string "lf"),
        ("plugins", .array [.string "svelte", .null]), ("printWidth", .int 100)] := by
  have hsorted : assorted.Sorted := by
    rw [Entries.Sorted, assorted]
    decide
  obtain ⟨hread, hwritten⟩ := known_keys_decide hsorted
  have hfits : ∀ (key : OptionKey) (value : Value), assorted.find? key.name = some value →
      value = .null ∨ key.type.Fits value := by
    intro key value hvalue
    cases key <;> cases hvalue
    · exact .inr (.width (n := 100) (by decide))
    · exact .inl rfl
    · exact .inr (.variant (by decide))
  obtain ⟨options, hoptions⟩ := hread.2 hfits
  exact ⟨hsorted, options, hoptions, (hwritten options hoptions).1⟩

end FormatOptions

end EditorFormat
