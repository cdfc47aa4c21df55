/-!
# File names and the parsers they ask for

The part of a file name after its last dot decides which parser formats the file.
-/

namespace EditorFormat.FileName

/-- The extensions of the files the editor offers to format. -/
def supportedExtensions : List String :=
  ["html", "htm", "css", "scss", "less", "js", "cjs", "es", "mjs", "jsx", "ts", "tsx", "vue",
    "json", "hbs", "handlebars", "md", "yaml", "yml"]

/-- What follows the last dot; the whole name when it has no dot. -/
def extension (name : String) : String :=
  String.ofList (name.toList.reverse.takeWhile (· ≠ '.')).reverse

/-- The parser for a file extension. An extension without an entry names its parser itself. -/
def parserOfExtension : String → String
  | "html" | "htm" => "html"
  | "js" | "cjs" | "es" | "mjs" | "jsx" => "babel"
  | "ts" | "tsx" => "typescript"
  | "hbs" | "handlebars" => "glimmer"
  | "md" => "markdown"
  | "yaml" | "yml" => "yaml"
  | other => other

/-- The parser for a file. -/
def inferParser (name : String) : String :=
  parserOfExtension (extension name)

/-- A file is supported when it has a dot and its extension is one of the supported ones. -/
def isSupported (name : String) : Bool :=
  name.toList.contains '.' && supportedExtensions.contains (extension name)

end EditorFormat.FileName
