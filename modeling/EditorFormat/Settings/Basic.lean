import EditorFormat.Json.Printer
import EditorFormat.Options.FormatOptions

/-!
# User settings

The options that are used where a project has no config, and what happens on an error. Settings
are kept as a versioned JSON object. `ofPersisted?` lays the kept object over the defaults key by
key, so one bad value does not spoil the others.
-/

namespace EditorFormat

/-- The settings of a user. -/
structure Settings where
  /-- The version of the written form. -/
  version : UInt32
  /-- Show the log on an error, not only a hint at it. -/
  opensLogOnError : Bool
  options : FormatOptions

namespace Settings

/-- The version that is written and understood. -/
def currentVersion : UInt32 := 3

/-- The options of a user who chose nothing. -/
def defaultOptions : FormatOptions where
  get
    | .printWidth => some (80 : UInt32)
    | .tabWidth => some (4 : UInt32)
    | .useTabs => some false
    | .semi => some true
    | .singleQuote => some false
    | .quoteProps => some ⟨"as-needed", by decide⟩
    | .jsxSingleQuote => some false
    | .trailingComma => some ⟨"none", by decide⟩
    | .bracketSpacing => some true
    | .bracketSameLine => some false
    | .arrowParens => some ⟨"avoid", by decide⟩
    | .rangeStart => some (0 : UInt64)
    | .rangeEnd => none
    | .requirePragma => some false
    | .insertPragma => some false
    | .proseWrap => some ⟨"preserve", by decide⟩
    | .htmlWhitespaceSensitivity => some ⟨"css", by decide⟩
    | .vueIndentScriptAndStyle => some false
    | .endOfLine => some ⟨"lf", by decide⟩
    | .embeddedLanguageFormatting => some ⟨"auto", by decide⟩
    | .singleAttributePerLine => some false
  extra := []

/-- The settings of a user who chose nothing. -/
def initial : Settings :=
  ⟨currentVersion, true, defaultOptions⟩

instance : Inhabited Settings :=
  ⟨initial⟩

/-- The key of `opensLogOnError`. -/
def opensLogName : String :=
  "openErrorPageOnErrors"

/-- The members that are written, in their order. -/
def members (settings : Settings) : List (String × Json.Value) :=
  ("version", .ofNat settings.version.toNat) :: (opensLogName, .bool settings.opensLogOnError)
    :: settings.options.members

/-- The members as a map. -/
def object (settings : Settings) : Json.Object :=
  Entries.ofPairs settings.members

/-- The written form. -/
def encode (settings : Settings) : Json.Value :=
  .object settings.object

/-- The text of the settings file. -/
def text (settings : Settings) : String :=
  Json.prettyObject settings.members

/-- The fields besides the options. -/
def shape : Json.Shape (UInt32 × Bool) where
  name := "PluginSettings"
  fields := [
    ⟨"version", false, fun (_, opens) value =>
      return (UInt32.ofNat (← value.decodeWord32), opens)⟩,
    ⟨opensLogName, false, fun (version, _) value => return (version, ← value.decodeBool)⟩]

/-- Read settings. A missing version is zero. -/
def decode (value : Json.Value) : Except Json.DecodeError Settings := do
  let ((version, opens), options) ← FormatOptions.decodeBeside shape (0, true) value
  return ⟨version, opens, options⟩

/-- Take over one kept member if the settings can still be read with it. -/
def overlay (accepted : Json.Object) (member : String × Json.Value) : Json.Object :=
  let candidate := accepted.put member.1 member.2
  if (decode (.object candidate)).isOk then candidate else accepted

/-- Whether a member is the current version, as an integer. -/
def isCurrent : Option Json.Value → Bool
  | some (.int n) => n = currentVersion.toNat
  | _ => false

/-- The settings in a kept value: the defaults with every kept member that fits. There are none
when nothing is kept, or no object, or one of another version. -/
def ofPersisted? : Option Json.Value → Option Settings
  | some (.object kept) =>
    if isCurrent (Entries.find? kept "version") then
      (decode (.object (kept.foldl overlay initial.object))).toOption
    else none
  | _ => none

end Settings

end EditorFormat
