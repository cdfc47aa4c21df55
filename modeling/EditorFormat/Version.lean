/-!
# The version of the library
-/

namespace EditorFormat

/-- The version of the library. -/
def version : String :=
  "1.0.1"

end EditorFormat
