import EditorFormat.Config.JsonText
import EditorFormat.Config.Script
import EditorFormat.Config.TomlText
import EditorFormat.Config.YamlText
import EditorFormat.Files.FileSystem

/-!
# Config files and their formats

The names of config files, best first, the format that each name stands for, and the reading of
a config text in its format.
-/

namespace EditorFormat.Config

open Files (Path FileError)

/-- How a config file is read. -/
inductive Format where
  | json
  | yaml
  | toml
  | script
deriving DecidableEq, Repr, Inhabited

/-- The name of a format. -/
def Format.name : Format → String
  | .json => "json"
  | .yaml => "yaml"
  | .toml => "toml"
  | .script => "script"

/-- The format of a name. -/
def Format.ofName? (name : String) : Option Format :=
  [Format.json, .yaml, .toml, .script].find? fun format => format.name = name

/-- The names of config files. Of several in a folder the first one counts. -/
def fileNames : List String :=
  [".prettierrc", ".prettierrc.json", ".prettierrc.yaml", ".prettierrc.yml", ".prettierrc.toml",
    ".prettierrc.js", ".prettier.config.js", ".prettierrc.mjs", ".prettierrc.config.mjs",
    ".prettierrc.cjs", ".prettierrc.config.cjs"]

/-- The format of a config file, by its name. -/
def Format.ofFileName? : String → Option Format
  | ".prettierrc" | ".prettierrc.json" => some .json
  | ".prettierrc.yaml" | ".prettierrc.yml" => some .yaml
  | ".prettierrc.toml" => some .toml
  | ".prettierrc.js" | ".prettier.config.js" | ".prettierrc.mjs" | ".prettierrc.config.mjs"
  | ".prettierrc.cjs" | ".prettierrc.config.cjs" => some .script
  | _ => none

/-- The words of the system and of the readers: for a file that is not read, and for a text that is
not what it should be. Nothing is known of them. -/
structure Wording where
  file : FileError → String
  json : String → String
  yaml : String → String
  toml : String → String
  json5 : String → String
deriving Inhabited

/-- Why a config is not read. A cause that is not found by the program itself carries the words of
who found it. -/
inductive Cause where
  | unreadable (error : FileError) (words : String)
  | json (error : Json.ReadError) (words : String)
  | yaml (words : String)
  | toml (words : String)
  | script (error : Script.ScriptError) (words : String)
  /-- The caller would have to wait inside of a task that must not wait. -/
  | mustNotWait
deriving Inhabited

/-- A config that is not read: its path and the cause. -/
structure ConfigError where
  path : Path
  cause : Cause
deriving Inhabited

namespace ConfigError

/-- The wording of an error. -/
def message (error : ConfigError) : String :=
  match error.cause with
  | .unreadable _ words => "failed to read config file " ++ error.path ++ ": " ++ words
  | .json _ words => "invalid JSON in " ++ error.path ++ ": " ++ words
  | .yaml words => "invalid YAML in " ++ error.path ++ ": " ++ words
  | .toml words => "invalid TOML in " ++ error.path ++ ": " ++ words
  | .script reason words =>
    error.path ++ " does not export a plain object literal: " ++ reason.message words
  | .mustNotWait =>
    "cannot resolve config for " ++ error.path ++ " by blocking inside an async runtime"

end ConfigError

/-- The options in a config text. -/
def parse (words : Wording) (format : Format) (text : String) : Except Cause FormatOptions :=
  match format with
  | .json => (ofJson text).mapError fun error => .json error (words.json text)
  | .yaml => (ofYaml? text).elim (.error (.yaml (words.yaml text))) .ok
  | .toml => (ofToml? text).elim (.error (.toml (words.toml text))) .ok
  | .script => (Script.evaluate text).mapError fun error => .script error (words.json5 text)

end EditorFormat.Config
