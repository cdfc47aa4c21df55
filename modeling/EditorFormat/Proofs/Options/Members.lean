import EditorFormat.Options.FormatOptions
import EditorFormat.Proofs.Json.Records

/-!
# Options as members of an object

Options are read from an object key by key: `ofMembers_eq_ok_iff` says of each known key, and of
the unknown ones together, what the options hold. Options that were read (`Tidy`) are written so
that every key is found again (`Tidy.find?_members_name`, `find?_members_unknown`), and reading what was
written gives them back (`Tidy.ofMembers_eq`).
-/

namespace EditorFormat

open Json (Value Object DecodeError)

namespace OptionType

/-- A written value is read back. -/
@[simp] theorem decode_encode (type : OptionType) (value : type.Value) :
    type.decode (type.encode value) = .ok value := by
  cases type with
  | flag => rfl
  | width =>
    rw [decode, encode, Value.decodeWord32, Value.decodeNat_ofNat value.toNat_lt]
    exact congrArg Except.ok UInt32.ofNat_toNat
  | offset =>
    rw [decode, encode, Value.decodeSize, Value.decodeNat_ofNat value.toNat_lt]
    exact congrArg Except.ok UInt64.ofNat_toNat
  | choice names => simp only [decode, encode, decodeChoice, choose, dif_pos value.property]

/-- A value is not written as null. -/
theorem decodeOptional_encode (type : OptionType) (value : type.Value) :
    (type.encode value).decodeOptional type.decode = .ok (some value) := by
  have hread : some <$> type.decode (type.encode value) = .ok (some value) := by
    rw [decode_encode]
    rfl
  cases type <;> exact hread

/-- A choice that is given as an object is its only key, with null as its value. -/
theorem decodeChoice_object {names : List String} {name : String} {value : Json.Value}
    {others : Object} {found : { name : String // name ∈ names }} :
    decodeChoice names (.object ((name, value) :: others)) = .ok found ↔
      choose names name = .ok found ∧ value = .null ∧ others = [] := by
  cases others with
  | cons other later => exact ⟨nofun, fun h => absurd h.2.2 nofun⟩
  | nil =>
    simp only [decodeChoice, Json.bind_eq_ok, and_true]
    constructor
    · rintro ⟨chosen, hchosen, hvalue⟩
      split at hvalue
      · exact ⟨hvalue ▸ hchosen, rfl⟩
      · cases hvalue
    · rintro ⟨hchosen, rfl⟩
      exact ⟨found, hchosen, rfl⟩

end OptionType

/-- Keys of one name are the same. -/
theorem OptionKey.name_injective (key other : OptionKey) (h : key.name = other.name) :
    key = other := by
  have hfound := ofName?_name key
  rw [h, ofName?_name] at hfound
  exact (Option.some.inj hfound).symm

namespace FormatOptions

/-- The members with unknown keys. -/
def unknownMembers {ν : Type} (members : List (String × ν)) : List (String × ν) :=
  members.filter fun member => (OptionKey.ofName? member.1).isNone

/-- What members say of a known key. -/
def readKey (members : List (String × Value)) (key : OptionKey) :
    Except DecodeError (Option key.Value) :=
  match Entries.find? members key.name with
  | none => .ok none
  | some value => value.decodeOptional key.type.decode

/-- Options with the same values and the same unknown keys are the same. -/
theorem eq_of_get {first second : FormatOptions} (hget : ∀ key, first.get key = second.get key)
    (hextra : first.extra = second.extra) : first = second := by
  obtain ⟨get, extra⟩ := first
  obtain ⟨other, rest⟩ := second
  obtain rfl : get = other := funext hget
  obtain rfl : extra = rest := hextra
  rfl

/-! ## Reading -/

section Reading

variable {members : List (String × Value)} {start options : FormatOptions}

/-- What is read of one member, with its key known or unknown. -/
theorem readMember_known (start : FormatOptions) (key : OptionKey) (value : Value) :
    readMember (fun type => Value.decodeOptional type.decode) Except.ok start (key.name, value) =
      start.set key <$> value.decodeOptional key.type.decode := by
  rw [readMember, OptionKey.ofName?_name]

/-- An unknown key is kept with its value. -/
theorem readMember_unknown (start : FormatOptions) {name : String} (value : Value)
    (h : OptionKey.ofName? name = none) :
    readMember (fun type => Value.decodeOptional type.decode) Except.ok start (name, value) =
      .ok { start with extra := start.extra.put name value } := by
  rw [readMember, h]
  rfl

/-- The unknown keys of the members are kept. -/
theorem extra_of_foldlM (h : members.foldlM
    (readMember (fun type => Value.decodeOptional type.decode) Except.ok) start = .ok options) :
    options.extra = (unknownMembers members).foldl
      (fun entries pair => Entries.put entries pair.1 pair.2) start.extra := by
  induction members generalizing start with
  | nil => rw [← Except.ok.inj h]; rfl
  | cons member rest ih =>
    obtain ⟨name, value⟩ := member
    rw [List.foldlM_cons] at h
    cases hname : OptionKey.ofName? name with
    | none =>
      rw [readMember_unknown start value hname] at h
      rw [ih h, unknownMembers, unknownMembers, List.filter_cons_of_pos (by simp [hname]),
        List.foldl_cons]
    | some key =>
      obtain rfl := OptionKey.name_of_ofName? hname
      rw [readMember_known] at h
      cases hvalue : value.decodeOptional key.type.decode with
      | error error => rw [hvalue] at h; exact absurd h nofun
      | ok found =>
        rw [hvalue] at h
        rw [ih h, unknownMembers, unknownMembers, List.filter_cons_of_neg (by simp), extra_set]

/-- The unknown keys of an object are kept. -/
theorem extra_of_ofMembers (h : ofMembers members = .ok options) :
    options.extra = Entries.ofPairs (unknownMembers members) :=
  extra_of_foldlM h

/-- What members say of a known key when one starts from options. A key that is not among them keeps
its value. -/
def readKeyFrom (start : FormatOptions) (members : List (String × Value)) (key : OptionKey) :
    Except DecodeError (Option key.Value) :=
  match Entries.find? members key.name with
  | none => .ok (start.get key)
  | some value => value.decodeOptional key.type.decode

/-- A member with an unknown key says nothing of a known one. -/
theorem readKeyFrom_cons_unknown {name : String} (h : OptionKey.ofName? name = none)
    (start : FormatOptions) (value : Value) (rest : List (String × Value)) (key : OptionKey) :
    readKeyFrom start ((name, value) :: rest) key = readKeyFrom start rest key := by
  have hne : name ≠ key.name := by
    rintro rfl
    rw [OptionKey.ofName?_name] at h
    cases h
  simp only [readKeyFrom, Entries.find?, if_neg hne]

/-- A member of a known key sets that key and no other one. -/
theorem readKeyFrom_cons_known {key : OptionKey} {value : Value} {found : Option key.Value}
    (hvalue : value.decodeOptional key.type.decode = .ok found) {rest : List (String × Value)}
    (habsent : Entries.find? rest key.name = none) (start : FormatOptions) (other : OptionKey) :
    readKeyFrom start ((key.name, value) :: rest) other =
      readKeyFrom (start.set key found) rest other := by
  by_cases hother : key = other
  · subst hother
    simp [readKeyFrom, Entries.find?, habsent, hvalue]
  · have hne : key.name ≠ other.name := fun heq =>
      hother (OptionKey.name_injective key other heq)
    simp [readKeyFrom, Entries.find?, hne, hother]

/-- Members none of which has the key of another one are read key by key. -/
theorem foldlM_eq_ok_iff (hnodup : (Entries.keys members).Nodup) :
    members.foldlM (readMember (fun type => Value.decodeOptional type.decode) Except.ok) start =
        .ok options ↔
      (∀ key, readKeyFrom start members key = .ok (options.get key)) ∧
      options.extra = (unknownMembers members).foldl
        (fun entries pair => Entries.put entries pair.1 pair.2) start.extra := by
  induction members generalizing start with
  | nil =>
    constructor
    · intro h
      obtain rfl := Except.ok.inj h
      exact ⟨fun _ => rfl, rfl⟩
    · rintro ⟨hget, hextra⟩
      exact congrArg Except.ok (eq_of_get (fun key => Except.ok.inj (hget key)) hextra.symm)
  | cons member rest ih =>
    obtain ⟨name, value⟩ := member
    obtain ⟨hfirst, hrest⟩ := List.nodup_cons.1 hnodup
    rw [List.foldlM_cons]
    cases hname : OptionKey.ofName? name with
    | none =>
      rw [readMember_unknown start value hname, unknownMembers,
        List.filter_cons_of_pos (by simp [hname]), List.foldl_cons]
      simp only [readKeyFrom_cons_unknown hname]
      exact ih hrest
    | some key =>
      obtain rfl := OptionKey.name_of_ofName? hname
      have habsent : Entries.find? rest key.name = none := Entries.find?_eq_none_iff.2 hfirst
      rw [readMember_known, unknownMembers, List.filter_cons_of_neg (by simp)]
      cases hvalue : value.decodeOptional key.type.decode with
      | error error =>
        constructor
        · intro h
          cases h
        · rintro ⟨hget, -⟩
          have hkey := hget key
          simp only [readKeyFrom, Entries.find?, if_pos, hvalue] at hkey
          cases hkey
      | ok found =>
        simp only [readKeyFrom_cons_known hvalue habsent]
        exact ih hrest

/-- Members are read key by key when none has the key of another one. -/
theorem ofMembers_eq_ok_iff (hnodup : (Entries.keys members).Nodup) :
    ofMembers members = .ok options ↔
      (∀ key, readKey members key = .ok (options.get key)) ∧
        options.extra = Entries.ofPairs (unknownMembers members) :=
  foldlM_eq_ok_iff hnodup

end Reading

/-! ## Writing -/

/-- The unknown keys are in order, and none of them is known. -/
structure Tidy (options : FormatOptions) : Prop where
  sorted : options.extra.Sorted
  unknown : ∀ key ∈ options.extra.keys, OptionKey.ofName? key = none

/-- Options that were read are tidy. -/
theorem tidy_of_ofMembers {members : List (String × Value)} {options : FormatOptions}
    (h : ofMembers members = .ok options) : options.Tidy := by
  have hextra := extra_of_ofMembers h
  refine ⟨hextra ▸ Entries.sorted_ofPairs _, fun key hkey => ?_⟩
  obtain ⟨value, hfound⟩ := Entries.mem_keys_iff_find?.1 hkey
  rw [hextra, Entries.find?_ofPairs] at hfound
  have hmem := List.mem_reverse.1 (Entries.mem_of_find? hfound)
  exact Option.isNone_iff_eq_none.1 (List.mem_filter.1 hmem).2

/-- The known keys are listed by their names. -/
theorem known_eq (options : FormatOptions) :
    OptionKey.all.filterMap options.member? = OptionKey.all.filterMap fun key =>
      ((options.get key).map key.type.encode).map fun found => (key.name, found) := by
  refine congrArg (OptionKey.all.filterMap ·) (funext fun key => ?_)
  rw [Option.map_map]
  rfl

/-- A known key is written with its value. -/
theorem find?_known (options : FormatOptions) (key : OptionKey) :
    Entries.find? (OptionKey.all.filterMap options.member?) key.name =
      (options.get key).map key.type.encode := by
  rw [known_eq]
  exact Entries.find?_filterMap_of_mem OptionKey.name_injective
    (fun key => (options.get key).map key.type.encode) key.mem_all

/-- No unknown key is written among the known ones. -/
theorem find?_known_of_unknown (options : FormatOptions) {name : String}
    (h : OptionKey.ofName? name = none) :
    Entries.find? (OptionKey.all.filterMap options.member?) name = none := by
  rw [known_eq]
  refine Entries.find?_filterMap_of_notMem (fun key => (options.get key).map key.type.encode)
    fun key _ heq => ?_
  rw [← heq, OptionKey.ofName?_name] at h
  exact absurd h nofun

/-- The written members of tidy options have different keys. -/
theorem Tidy.nodup_members {options : FormatOptions} (h : options.Tidy) :
    (Entries.keys options.members).Nodup := by
  have hnames : OptionKey.all.Pairwise fun first second => first.name ≠ second.name := by decide
  rw [Entries.keys, members, List.map_append, List.nodup_append]
  refine ⟨?_, h.sorted.nodup_keys, fun known hknown unknown hunknown heq => ?_⟩
  · refine List.pairwise_map.2 (List.Pairwise.filterMap _ ?_ hnames)
    intro first second hne entry hentry later hlater
    obtain ⟨_, -, rfl⟩ := Option.map_eq_some_iff.1 hentry
    obtain ⟨_, -, rfl⟩ := Option.map_eq_some_iff.1 hlater
    exact hne
  · obtain ⟨entry, hentry, rfl⟩ := List.mem_map.1 hknown
    obtain ⟨key, -, hmember⟩ := List.mem_filterMap.1 hentry
    obtain ⟨_, -, rfl⟩ := Option.map_eq_some_iff.1 hmember
    have hnone := h.unknown unknown hunknown
    rw [← heq, OptionKey.ofName?_name] at hnone
    cases hnone

/-- What is found among the written members: the known keys that are set, then the unknown ones. -/
theorem find?_members (options : FormatOptions) (key : String) :
    Entries.find? options.members key =
      (Entries.find? (OptionKey.all.filterMap options.member?) key).or (options.extra.find? key) :=
  Entries.find?_append ..

/-- The written members of tidy options hold the value of every known key that is set. -/
theorem Tidy.find?_members_name {options : FormatOptions} (h : options.Tidy) (key : OptionKey) :
    Entries.find? options.members key.name = (options.get key).map key.type.encode := by
  have habsent : options.extra.find? key.name = none := by
    refine Entries.find?_eq_none_iff.2 fun hkey => ?_
    have hnone := h.unknown _ hkey
    rw [OptionKey.ofName?_name] at hnone
    exact absurd hnone nofun
  rw [find?_members, find?_known, habsent, Option.or_none]

/-- The written members hold the unknown keys as they are. -/
theorem find?_members_unknown (options : FormatOptions) {key : String}
    (h : OptionKey.ofName? key = none) :
    Entries.find? options.members key = options.extra.find? key := by
  rw [find?_members, find?_known_of_unknown options h, Option.none_or]

/-- An unknown key that is absent is not written. -/
theorem find?_reverse_members_eq_none {options : FormatOptions} {key : String}
    (h : OptionKey.ofName? key = none) (habsent : options.extra.find? key = none) :
    Entries.find? options.members.reverse key = none :=
  Entries.find?_reverse_eq_none_iff.2 (habsent ▸ find?_members_unknown options h)

/-- Tidy options are read back from members in which every option key and every unknown key is
found as it was written. -/
theorem Tidy.ofMembers_eq {options : FormatOptions} (h : options.Tidy) {members : Object}
    (hsorted : members.Sorted)
    (hfind : ∀ key, members.find? key = Entries.find? options.members key) :
    ofMembers members = .ok options := by
  rw [ofMembers_eq_ok_iff hsorted.nodup_keys]
  refine ⟨fun key => ?_, ?_⟩
  · rw [readKey, hfind, h.find?_members_name]
    cases options.get key with
    | none => rfl
    | some value => exact key.type.decodeOptional_encode value
  · have hunknown : Entries.Sorted (unknownMembers members) := hsorted.filter _
    rw [hunknown.ofPairs_eq]
    refine h.sorted.ext hunknown fun key => ?_
    rw [unknownMembers, Entries.find?_filter members fun name => (OptionKey.ofName? name).isNone]
    cases hname : OptionKey.ofName? key with
    | none => rw [hfind, find?_members_unknown options hname]; rfl
    | some known =>
      refine Entries.find?_eq_none_iff.2 fun hkey => ?_
      rw [h.unknown key hkey] at hname
      exact absurd hname nofun

end FormatOptions

end EditorFormat
