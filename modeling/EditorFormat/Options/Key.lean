import EditorFormat.Json.Decode

/-!
# Option keys

The options that are known by name, each with the type of its values. Every other key of an
options object is passed on as it is.
-/

namespace EditorFormat

/-- The type of an option's values. -/
inductive OptionType where
  /-- A boolean. -/
  | flag
  /-- A number of columns, of 32 bits. -/
  | width
  /-- A character offset, of 64 bits. -/
  | offset
  /-- One of the given names. -/
  | choice (names : List String)
deriving DecidableEq

/-- The values of a type of options. -/
abbrev OptionType.Value : OptionType → Type
  | .flag => Bool
  | .width => UInt32
  | .offset => UInt64
  | .choice names => { name : String // name ∈ names }

/-- The known options. -/
inductive OptionKey where
  | printWidth
  | tabWidth
  | useTabs
  | semi
  | singleQuote
  | quoteProps
  | jsxSingleQuote
  | trailingComma
  | bracketSpacing
  | bracketSameLine
  | arrowParens
  | rangeStart
  | rangeEnd
  | requirePragma
  | insertPragma
  | proseWrap
  | htmlWhitespaceSensitivity
  | vueIndentScriptAndStyle
  | endOfLine
  | embeddedLanguageFormatting
  | singleAttributePerLine
deriving DecidableEq, Repr

namespace OptionKey

/-- The keys in the order in which they are written. -/
def all : List OptionKey :=
  [.printWidth, .tabWidth, .useTabs, .semi, .singleQuote, .quoteProps, .jsxSingleQuote,
    .trailingComma, .bracketSpacing, .bracketSameLine, .arrowParens, .rangeStart, .rangeEnd,
    .requirePragma, .insertPragma, .proseWrap, .htmlWhitespaceSensitivity,
    .vueIndentScriptAndStyle, .endOfLine, .embeddedLanguageFormatting, .singleAttributePerLine]

/-- Every key is listed. -/
theorem mem_all (key : OptionKey) : key ∈ all := by
  cases key <;> decide

/-- The name of a key. -/
def name : OptionKey → String
  | .printWidth => "printWidth"
  | .tabWidth => "tabWidth"
  | .useTabs => "useTabs"
  | .semi => "semi"
  | .singleQuote => "singleQuote"
  | .quoteProps => "quoteProps"
  | .jsxSingleQuote => "jsxSingleQuote"
  | .trailingComma => "trailingComma"
  | .bracketSpacing => "bracketSpacing"
  | .bracketSameLine => "bracketSameLine"
  | .arrowParens => "arrowParens"
  | .rangeStart => "rangeStart"
  | .rangeEnd => "rangeEnd"
  | .requirePragma => "requirePragma"
  | .insertPragma => "insertPragma"
  | .proseWrap => "proseWrap"
  | .htmlWhitespaceSensitivity => "htmlWhitespaceSensitivity"
  | .vueIndentScriptAndStyle => "vueIndentScriptAndStyle"
  | .endOfLine => "endOfLine"
  | .embeddedLanguageFormatting => "embeddedLanguageFormatting"
  | .singleAttributePerLine => "singleAttributePerLine"

/-- The type of a key's values. -/
def type : OptionKey → OptionType
  | .printWidth | .tabWidth => .width
  | .rangeStart | .rangeEnd => .offset
  | .quoteProps => .choice ["as-needed", "consistent", "preserve"]
  | .trailingComma => .choice ["none", "es5", "all"]
  | .arrowParens => .choice ["avoid", "always"]
  | .proseWrap => .choice ["always", "never", "preserve"]
  | .htmlWhitespaceSensitivity => .choice ["css", "strict", "ignore"]
  | .endOfLine => .choice ["lf", "crlf", "cr", "auto"]
  | .embeddedLanguageFormatting => .choice ["auto", "off"]
  | _ => .flag

/-- The values of a key. -/
abbrev Value (key : OptionKey) : Type :=
  key.type.Value

/-- The key of a name. -/
def ofName? (name : String) : Option OptionKey :=
  all.find? fun key => key.name = name

/-- A key is found by its name. -/
@[simp] theorem ofName?_name (key : OptionKey) : ofName? key.name = some key := by
  cases key <;> decide

/-- A key that is found has the name it was sought by. -/
theorem name_of_ofName? {name : String} {key : OptionKey} (h : ofName? name = some key) :
    key.name = name := by
  simpa using List.find?_some h

end OptionKey

namespace OptionType

/-- The name of a choice as one of its names. -/
def choose (names : List String) (name : String) :
    Except Json.DecodeError { chosen : String // chosen ∈ names } :=
  if h : name ∈ names then .ok ⟨name, h⟩ else .error (.unknownChoice name names)

/-- A choice: its name, or an object with the name as its only key and a null value. -/
def decodeChoice (names : List String) :
    Json.Value → Except Json.DecodeError { chosen : String // chosen ∈ names }
  | .string name => choose names name
  | .object [(name, value)] => do
    let chosen ← choose names name
    match value with
    | .null => pure chosen
    | other => throw (.wrongType other.found .nothing)
  | .object _ => .error .notOneKey
  | other => .error (.wrongType other.found .choice)

/-- Read a value of an option. -/
def decode : (type : OptionType) → Json.Value → Except Json.DecodeError type.Value
  | .flag, value => value.decodeBool
  | .width, value => UInt32.ofNat <$> value.decodeWord32
  | .offset, value => UInt64.ofNat <$> value.decodeSize
  | .choice names, value => decodeChoice names value

/-- The written form of a value of an option. -/
def encode : (type : OptionType) → type.Value → Json.Value
  | .flag, value => .bool value
  | .width, value => .ofNat value.toNat
  | .offset, value => .ofNat value.toNat
  | .choice _, value => .string value.val

end OptionType

end EditorFormat
