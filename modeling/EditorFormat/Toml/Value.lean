/-!
# TOML values

The values of a TOML document. Integers have 64 bits with a sign. Dates and times are kept as
their normal text.
-/

namespace EditorFormat.Toml

/-- A TOML value. -/
inductive Value where
  | string (value : String)
  | int (value : Int)
  | float (value : Float)
  | bool (value : Bool)
  /-- A date, a time or both. -/
  | time (text : String)
  | array (items : List Value)
  | table (entries : List (String × Value))
deriving Inhabited

end EditorFormat.Toml
