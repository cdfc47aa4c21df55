import EditorFormat.Decimal.Shortest
import EditorFormat.Json.Value
import EditorFormat.Text.Debug

/-!
# Why a value does not fit a record

A value is read into a record field by field. The first field whose value does not fit, or that is
missing, is reported by its cause; `DecodeError.message` words it.
-/

namespace EditorFormat.Json

/-- What was found. -/
inductive Found where
  | boolean (value : Bool)
  | integer (value : Int)
  | number (value : Float)
  | text (value : String)
  | null
  | sequence
  | map
deriving Inhabited

/-- What was wanted. -/
inductive Expected where
  | boolean
  | word32
  | word64
  | size
  | text
  | nothing
  | choice
  | choiceName
  | record (name : String)
deriving Inhabited, DecidableEq

/-- Why a value does not fit. -/
inductive DecodeError where
  /-- The value is of another kind. -/
  | wrongType (found : Found) (expected : Expected)
  /-- The integer is outside the range. -/
  | outOfRange (value : Int) (expected : Expected)
  /-- A choice written as an object has more or fewer than one key. -/
  | notOneKey
  /-- The choice has no such name. -/
  | unknownChoice (name : String) (names : List String)
  /-- A field without a default is missing. -/
  | missingField (name : String)
  /-- A field is given twice. -/
  | repeatedField (name : String)
  /-- The value is none of the alternatives of the type. -/
  | noAlternative (name : String)
  /-- A record given as an array has too few elements. -/
  | tooShort (length : Nat) (record : String) (fields : Nat)
  /-- A record given as an array has too many elements. -/
  | tooLong (length : Nat)
deriving Inhabited

/-- What a value is found to be. -/
def Value.found : Value → Found
  | .null => .null
  | .bool value => .boolean value
  | .int value => .integer value
  | .float value => .number value
  | .string value => .text value
  | .array _ => .sequence
  | .object _ => .map

/-- Floats have the fewest digits that read back, a point and a zero when they are whole, and an
exponent below `1e-5` and from `1e+16` on. -/
def floatStyle : Decimal.FloatStyle :=
  ⟨-5, 15, true, "+"⟩

namespace Found

/-- The wording of what was found. -/
def message : Found → String
  | .boolean value => "boolean \x60" ++ toString value ++ "\x60"
  | .integer value => "integer \x60" ++ toString value ++ "\x60"
  | .number value => "floating point \x60" ++ floatStyle.write value ++ "\x60"
  | .text value => "string " ++ Text.quoted value
  | .null => "null"
  | .sequence => "sequence"
  | .map => "map"

end Found

namespace Expected

/-- The wording of what was wanted. -/
def message : Expected → String
  | .boolean => "a boolean"
  | .word32 => "u32"
  | .word64 => "u64"
  | .size => "usize"
  | .text => "a string"
  | .nothing => "unit"
  | .choice => "string or map"
  | .choiceName => "variant identifier"
  | .record name => "struct " ++ name

end Expected

namespace DecodeError

/-- A name between backquotes. -/
def quote (name : String) : String :=
  "\x60" ++ name ++ "\x60"

/-- The allowed names of a choice: two with "or", more as a list. -/
def allowed : List String → String
  | [] => "there are no variants"
  | [name] => "expected " ++ quote name
  | [first, second] => "expected " ++ quote first ++ " or " ++ quote second
  | names => "expected one of " ++ ", ".intercalate (names.map quote)

/-- The wording of a cause. -/
def message : DecodeError → String
  | .wrongType found expected => "invalid type: " ++ found.message ++ ", expected " ++ expected.message
  | .outOfRange value expected =>
    "invalid value: " ++ (Found.integer value).message ++ ", expected " ++ expected.message
  | .notOneKey => "invalid value: map, expected map with a single key"
  | .unknownChoice name names => "unknown variant " ++ quote name ++ ", " ++ allowed names
  | .missingField name => "missing field " ++ quote name
  | .repeatedField name => "duplicate field " ++ quote name
  | .noAlternative name => "data did not match any variant of untagged enum " ++ name
  | .tooShort length record fields =>
    "invalid length " ++ toString length ++ ", expected struct " ++ record ++ " with "
      ++ toString fields ++ " elements"
  | .tooLong length =>
    "invalid length " ++ toString length ++ ", expected fewer elements in array"

end DecodeError

end EditorFormat.Json
