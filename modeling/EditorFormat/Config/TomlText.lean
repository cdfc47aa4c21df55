import EditorFormat.Options.FormatOptions
import EditorFormat.Toml.Reader

/-!
# Options in TOML text

The document is a table from option names to values. Known options are read strictly, and a choice
may also be the only key of a table with an empty value.
-/

namespace EditorFormat.Toml

namespace Value

mutual

/-- The value of an unknown option. A float that is not finite is null, and a date or time is an
object that holds its text. -/
def toJson : Value → Json.Value
  | .string text => .string text
  | .int n => .int n
  | .float value => if value.isFinite then .float value else .null
  | .bool value => .bool value
  | .time text => .object [("$__toml_private_datetime", .string text)]
  | .array items => .array (itemsToJson items)
  | .table entries => .ofMembers (entriesToJson entries)

/-- The values of the items of an array. -/
def itemsToJson : List Value → List Json.Value
  | [] => []
  | item :: rest => toJson item :: itemsToJson rest

/-- The values of the entries of a table. -/
def entriesToJson : List (String × Value) → List (String × Json.Value)
  | [] => []
  | (key, value) :: rest => (key, toJson value) :: entriesToJson rest

end

/-- Whether a value is an array or table without contents. -/
def isEmpty : Value → Bool
  | .array items => items.isEmpty
  | .table entries => entries.isEmpty
  | _ => false

end Value

end EditorFormat.Toml

namespace EditorFormat.Config

/-- A value of a known option. -/
def known? : (type : OptionType) → Toml.Value → Option (Option type.Value)
  | .flag, .bool value => some (some value)
  | .width, .int n => if 0 ≤ n ∧ n < UInt32.size then some (some (UInt32.ofNat n.toNat)) else none
  | .offset, .int n => if 0 ≤ n ∧ n < UInt64.size then some (some (UInt64.ofNat n.toNat)) else none
  | .choice names, .string name => (OptionType.choose names name).toOption.map some
  | .choice names, .table [(name, value)] =>
    if value.isEmpty then (OptionType.choose names name).toOption.map some else none
  | _, _ => none

/-- The options in a TOML text, if it holds options. -/
def ofToml? (text : String) : Option FormatOptions := do
  let entries ← Toml.read? text
  let readMember (options : FormatOptions) (entry : String × Toml.Value) :
      Except Unit FormatOptions :=
    options.readMember (fun type value => (known? type value).elim (.error ()) .ok)
      (fun value => .ok value.toJson) entry
  (entries.foldlM readMember .empty).toOption

end EditorFormat.Config
