import EditorFormat.Json.DecodeError

/-!
# Reading values into records

Scalars are read strictly: a float is never an integer, even when it is whole, and null is only
accepted where a field may be absent. A record is given as an object, whose unknown keys are
ignored, or as an array of its fields in the order of their declaration, where fields with
a default may be left out at the end.
-/

namespace EditorFormat.Json

namespace Value

/-- A boolean. -/
def decodeBool : Value → Except DecodeError Bool
  | .bool value => .ok value
  | other => .error (.wrongType other.found .boolean)

/-- A string. -/
def decodeText : Value → Except DecodeError String
  | .string value => .ok value
  | other => .error (.wrongType other.found .text)

/-- A natural number below `limit`. -/
def decodeNat (limit : Nat) (expected : Expected) : Value → Except DecodeError Nat
  | .int n =>
    if 0 ≤ n ∧ n < limit then .ok n.toNat else .error (.outOfRange n expected)
  | other => .error (.wrongType other.found expected)

/-- A natural number of 64 bits that counts characters or lines. -/
def decodeSize : Value → Except DecodeError Nat :=
  decodeNat UInt64.size .size

/-- A natural number of 64 bits. -/
def decodeWord64 : Value → Except DecodeError Nat :=
  decodeNat UInt64.size .word64

/-- A natural number of 32 bits. -/
def decodeWord32 : Value → Except DecodeError Nat :=
  decodeNat UInt32.size .word32

/-- A value that may be null. -/
def decodeOptional {α : Type} (decode : Value → Except DecodeError α) :
    Value → Except DecodeError (Option α)
  | .null => .ok none
  | value => some <$> decode value

end Value

/-- A field of a record that is being read into a draft of type `δ`. -/
structure Field (δ : Type) where
  /-- The key of the field. -/
  name : String
  /-- Whether the field must be present. -/
  isRequired : Bool
  /-- Read the value into the draft. -/
  store : δ → Value → Except DecodeError δ

/-- How a record is read: its name, and its fields in the order of their declaration. -/
structure Shape (δ : Type) where
  name : String
  fields : List (Field δ)

namespace Shape

variable {δ : Type}

/-- The field of a key. -/
def field? (shape : Shape δ) (key : String) : Option (Field δ) :=
  shape.fields.find? fun field => field.name = key

/-- Read members one after the other. A field may be given once. -/
def readMembers (shape : Shape δ) : List String → δ → List (String × Value) →
    Except DecodeError (List String × δ)
  | seen, draft, [] => .ok (seen, draft)
  | seen, draft, (key, value) :: rest =>
    match shape.field? key with
    | none => readMembers shape seen draft rest
    | some field => do
      if seen.contains key then throw (.repeatedField key)
      readMembers shape (key :: seen) (← field.store draft value) rest

/-- Read elements into the fields in their order. `position` fields were read before. -/
def readElements (shape : Shape δ) (length : Nat) : Nat → List (Field δ) → δ → List Value →
    Except DecodeError δ
  | _, [], draft, [] => .ok draft
  | _, [], _, _ :: _ => .error (.tooLong length)
  | position, field :: fields, draft, [] =>
    if field.isRequired then .error (.tooShort position shape.name shape.fields.length)
    else readElements shape length (position + 1) fields draft []
  | position, field :: fields, draft, value :: rest => do
    readElements shape length (position + 1) fields (← field.store draft value) rest

/-- Read a record into a draft that starts as `blank`. The first missing field is reported after
all keys were read. -/
def read (shape : Shape δ) (blank : δ) : Value → Except DecodeError δ
  | .object members => do
    let (seen, draft) ← shape.readMembers [] blank members
    match shape.fields.find? fun field => field.isRequired && !seen.contains field.name with
    | some field => throw (.missingField field.name)
    | none => pure draft
  | .array items => shape.readElements items.length 0 shape.fields blank items
  | other => .error (.wrongType other.found (.record shape.name))

end Shape

end EditorFormat.Json
