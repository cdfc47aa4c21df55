import EditorFormat.Options.Key

/-!
# Format options

A record of options: a value for some of the known keys, and the unknown keys with their values.
A known key is unset by null.
-/

namespace EditorFormat

/-- Options of a format request. -/
structure FormatOptions where
  /-- The value of a known key, if it is set. -/
  get : (key : OptionKey) → Option key.Value
  /-- The other keys. -/
  extra : Json.Object

namespace FormatOptions

/-- No option is set. -/
def empty : FormatOptions :=
  ⟨fun _ => none, []⟩

instance : Inhabited FormatOptions :=
  ⟨empty⟩

/-- Set or unset a known key. -/
def set (options : FormatOptions) (key : OptionKey) (value : Option key.Value) : FormatOptions :=
  { options with get := fun other => if h : key = other then h ▸ value else options.get other }

/-- A key has the value it was set to. -/
@[simp] theorem get_set_self (options : FormatOptions) (key : OptionKey)
    (value : Option key.Value) : (options.set key value).get key = value := by
  simp [set]

/-- Setting a key leaves the others alone. -/
@[simp] theorem get_set_of_ne (options : FormatOptions) {key other : OptionKey}
    (value : Option key.Value) (h : key ≠ other) :
    (options.set key value).get other = options.get other := by
  simp [set, h]

/-- Setting a known key keeps the unknown ones. -/
@[simp] theorem extra_set (options : FormatOptions) (key : OptionKey)
    (value : Option key.Value) : (options.set key value).extra = options.extra :=
  rfl

/-- The options for formatting a selection on its own: all of its text, never a part of it. -/
def forSelection (options : FormatOptions) : FormatOptions :=
  (options.set .rangeStart (some (0 : UInt64))).set .rangeEnd none

/-- Read one member of an options object whose values are of type `ν`. -/
def readMember {ν ε : Type} (known : (type : OptionType) → ν → Except ε (Option type.Value))
    (unknown : ν → Except ε Json.Value) (options : FormatOptions) (member : String × ν) :
    Except ε FormatOptions :=
  match OptionKey.ofName? member.1 with
  | some key => options.set key <$> known key.type member.2
  | none => do
    return { options with extra := options.extra.put member.1 (← unknown member.2) }

/-- Read the members of an options object in their order. -/
def ofMembers (members : List (String × Json.Value)) : Except Json.DecodeError FormatOptions :=
  members.foldlM
    (readMember (fun type => Json.Value.decodeOptional type.decode) Except.ok) empty

/-- Read options from a value. -/
def decode : Json.Value → Except Json.DecodeError FormatOptions
  | .object members => ofMembers members
  | other => .error (.wrongType other.found (.record "FormatOptions"))

/-- Read a record that is written beside its options in one object. The fields of the record are
read, and found missing, before any option. -/
def decodeBeside {δ : Type} (shape : Json.Shape δ) (blank : δ) :
    Json.Value → Except Json.DecodeError (δ × FormatOptions)
  | .object members => do
    let record ← shape.read blank (.object members)
    let options ← ofMembers (members.filter fun member => (shape.field? member.1).isNone)
    return (record, options)
  | other => .error (.wrongType other.found (.record shape.name))

/-- The member of a known key, if it is set. -/
def member? (options : FormatOptions) (key : OptionKey) : Option (String × Json.Value) :=
  (options.get key).map fun value => (key.name, key.type.encode value)

/-- The members that are written: the known keys that are set, then the unknown keys. -/
def members (options : FormatOptions) : List (String × Json.Value) :=
  OptionKey.all.filterMap options.member? ++ options.extra

/-- The written form of the options. -/
def encode (options : FormatOptions) : Json.Value :=
  .ofMembers options.members

end FormatOptions

end EditorFormat
