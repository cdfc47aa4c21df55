import EditorFormat.Entries

/-!
# JSON values

A JSON number is an integer when its literal is one and fits a 64-bit word, signed or unsigned,
and a binary64 float otherwise. An object is a map: its members are sorted by key, and of two
members with one key the later one stays.
-/

namespace EditorFormat.Json

/-- A JSON value. -/
inductive Value where
  | null
  | bool (value : Bool)
  | int (value : Int)
  | float (value : Float)
  | string (value : String)
  | array (items : List Value)
  | object (members : List (String × Value))
deriving Inhabited

/-- The members of an object. -/
abbrev Object := Entries String Value

namespace Value

/-- The value of a natural number. -/
def ofNat (n : Nat) : Value :=
  .int n

/-- The object with the given members, in any order. -/
def ofMembers (members : List (String × Value)) : Value :=
  .object (Entries.ofPairs members)

/-- The members of an object; none of any other value. -/
def members? : Value → Option Object
  | .object members => some members
  | _ => none

/-- The member of an object at a key; null when it is absent or the value is no object. -/
def field (value : Value) (key : String) : Value :=
  match value with
  | .object members => (Entries.find? members key).getD .null
  | _ => .null

end Value

/-- Integers that a JSON integer literal can denote: those of 64-bit words, signed or unsigned. -/
def IsInteger (n : Int) : Prop :=
  -(UInt64.size / 2 : Nat) ≤ n ∧ n < UInt64.size

instance (n : Int) : Decidable (IsInteger n) :=
  inferInstanceAs (Decidable (_ ∧ _))

end EditorFormat.Json
