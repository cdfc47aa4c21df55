import EditorFormat.Settings.Basic
import EditorFormat.Text.Blank

/-!
# The settings page

Every setting has a row with its texts, the control by which it is edited, and its value. `assign`
gives a setting the value that a control hands back. A number may be handed back as text.
-/

namespace EditorFormat

/-- How a setting is edited. -/
inductive Control where
  | checkbox
  | number (prompt : String)
  | select (names : List String)
deriving DecidableEq, Repr

/-- What a row of the page edits. -/
inductive SettingKey where
  | opensLogOnError
  | option (key : OptionKey)
deriving DecidableEq, Repr

/-- A setting as the page describes it. -/
structure SettingRow where
  key : SettingKey
  title : String
  info : String

namespace SettingKey

/-- The key in the written form. -/
def name : SettingKey → String
  | .opensLogOnError => Settings.opensLogName
  | .option key => key.name

end SettingKey

namespace SettingRow

/-- The control of a row, by the type of its values. -/
def control (row : SettingRow) : Control :=
  match row.key with
  | .opensLogOnError => .checkbox
  | .option key =>
    match key.type with
    | .flag => .checkbox
    | .width | .offset => .number ("Enter " ++ row.title.toLower)
    | .choice names => .select names

/-- The value that a row shows; null when its option is unset. -/
def value (row : SettingRow) (settings : Settings) : Json.Value :=
  (settings.object.find? row.key.name).getD .null

end SettingRow

/-- The rows of the settings page. -/
def settingsPage : List SettingRow := [
  ⟨.opensLogOnError, "Open logs page on error", "Open logs page when an error occurs."⟩,
  ⟨.option .printWidth, "Print Width", "The line length where Prettier will try wrap."⟩,
  ⟨.option .tabWidth, "Tab Width", "Number of spaces per indentation level."⟩,
  ⟨.option .useTabs, "Use Tabs", "Indent lines with tabs instead of spaces."⟩,
  ⟨.option .semi, "Semicolons", "Print semicolons at the ends of statements."⟩,
  ⟨.option .singleQuote, "Single Quote", "Use single quotes instead of double quotes."⟩,
  ⟨.option .quoteProps, "Quote Props", "Change when properties in objects are quoted."⟩,
  ⟨.option .jsxSingleQuote, "JSX Single Quote",
    "Use single quotes instead of double quotes in JSX."⟩,
  ⟨.option .trailingComma, "Trailing Comma", "Print trailing commas wherever possible."⟩,
  ⟨.option .bracketSpacing, "Bracket Spacing",
    "Print spaces between brackets in object literals."⟩,
  ⟨.option .bracketSameLine, "Bracket Same Line",
    "Put the > of a multi-line JSX element at the end of the last line instead of being alone "
      ++ "on the next line."⟩,
  ⟨.option .arrowParens, "Arrow Parens",
    "Include parentheses around a sole arrow function parameter."⟩,
  ⟨.option .rangeStart, "Range Start", "Format only a segment of a file."⟩,
  ⟨.option .rangeEnd, "Range End", "Format only a segment of a file."⟩,
  ⟨.option .requirePragma, "Require Pragma",
    "Require either '@prettier' or '@format' to be present in the file's first docblock "
      ++ "comment."⟩,
  ⟨.option .insertPragma, "Insert Pragma",
    "Insert '@format' pragma into the docblock, if none is present."⟩,
  ⟨.option .proseWrap, "Prose Wrap", "How to wrap prose."⟩,
  ⟨.option .htmlWhitespaceSensitivity, "HTML Whitespace Sensitivity",
    "How to handle whitespaces in HTML."⟩,
  ⟨.option .vueIndentScriptAndStyle, "Vue Indent Script And Style",
    "Indent script and style tags in Vue files."⟩,
  ⟨.option .endOfLine, "End Of Line", "Which end of line characters to apply."⟩,
  ⟨.option .embeddedLanguageFormatting, "Embedded Language Formatting",
    "Enable/disable embedded language formatting."⟩,
  ⟨.option .singleAttributePerLine, "Single Attribute Per Line",
    "Put each attribute in a separate line."⟩]

/-- Why a text is no number. -/
inductive NumberTextError where
  | empty
  | notADigit
  | tooLarge
deriving DecidableEq, Repr

/-- The wording of an error. -/
def NumberTextError.message : NumberTextError → String
  | .empty => "cannot parse integer from empty string"
  | .notADigit => "invalid digit found in string"
  | .tooLarge => "number too large to fit in target type"

/-- Append decimal digits to a number below `2 ^ 64`. The first problem counts. -/
def appendDigits : Nat → List Char → Except NumberTextError Nat
  | n, [] => .ok n
  | n, c :: rest =>
    if c.isDigit then
      let longer := 10 * n + (c.toNat - '0'.toNat)
      if longer < UInt64.size then appendDigits longer rest else .error .tooLarge
    else .error .notADigit

/-- The natural number below `2 ^ 64` in a text: decimal digits, perhaps after a plus sign. -/
def numberOfText : List Char → Except NumberTextError Nat
  | [] => .error .empty
  | ['+'] => .error .notADigit
  | '+' :: rest => appendDigits 0 rest
  | text => appendDigits 0 text

/-- Why a setting is not changed. -/
inductive SettingError where
  /-- The page has no setting of this name. -/
  | unknownKey (name : String)
  /-- A text that was handed back for a number is none. -/
  | notANumber (name : String) (cause : NumberTextError)
  /-- The value is none of the setting's values. -/
  | mismatch (name : String) (cause : Json.DecodeError)

/-- The wording of an error. -/
def SettingError.message : SettingError → String
  | .unknownKey name => "unknown setting '" ++ name ++ "'"
  | .notANumber name cause => "invalid value for '" ++ name ++ "': " ++ cause.message
  | .mismatch name cause => "invalid value for '" ++ name ++ "': " ++ cause.message

namespace SettingRow

/-- Whether a text leaves the setting without a bound: only the end of the range has none, for an
empty answer and for infinity. -/
def isUnbounded (row : SettingRow) (text : String) : Bool :=
  row.key = .option .rangeEnd && (text = "" || text.toLower = "infinity")

/-- The value that a control handed back. A text that answers the prompt for a number stands for
that number. -/
def answer (row : SettingRow) (value : Json.Value) : Except SettingError Json.Value :=
  match row.control, value with
  | .number _, .string text =>
    let text := Text.trim text
    if row.isUnbounded text then .ok .null
    else
      match numberOfText text.toList with
      | .ok n => .ok (.ofNat n)
      | .error cause => .error (.notANumber row.key.name cause)
  | _, value => .ok value

end SettingRow

/-- The row of a setting by its name. -/
def settingRow? (name : String) : Option SettingRow :=
  settingsPage.find? fun row => row.key.name = name

/-- The settings with one of them given a value. -/
def Settings.assign (settings : Settings) (name : String) (value : Json.Value) :
    Except SettingError Settings :=
  match settingRow? name with
  | none => .error (.unknownKey name)
  | some row => do
    let value ← row.answer value
    (Settings.decode (.object (settings.object.put name value))).mapError (.mismatch name)

end EditorFormat
