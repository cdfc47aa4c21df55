/-!
# Paths

A path is a text whose components are separated by slashes. Repeated slashes, slashes at the end
and components `.` do not count, except for a `.` at the start. Paths are compared by components
and otherwise kept as they are written.
-/

namespace EditorFormat.Files

/-- A component of a path. -/
inductive Component where
  /-- The slash at the start of an absolute path. -/
  | root
  /-- A `.` at the start. -/
  | here
  /-- A name. The name `..` stands for the directory around. -/
  | name (text : String)
deriving DecidableEq, Repr

/-- A path as it is written. -/
abbrev Path := String

namespace Path

/-- The texts between slashes. -/
def parts : List Char → List (List Char)
  | [] => [[]]
  | c :: rest =>
    match parts rest with
    | [] => [[c]]
    | part :: later => if c = '/' then [] :: part :: later else (c :: part) :: later

/-- Whether a text between slashes does not count. -/
def isIdle (part : List Char) : Bool :=
  part == [] || part == ['.']

/-- The components of a path. -/
def components (path : Path) : List Component :=
  let names (texts : List (List Char)) : List Component :=
    (texts.filter (!isIdle ·)).map fun text => .name (String.ofList text)
  match parts path.toList with
  | [] :: _ :: _ => .root :: names (parts path.toList)
  | ['.'] :: later => .here :: names later
  | texts => names texts

/-- Whether a path has all components of another one at its start. -/
def startsWith (path folder : Path) : Bool :=
  (components folder).isPrefixOf (components path)

/-- The length of what a text keeps when it loses what does not count at its end: nothing of its
first `fixed` characters, and otherwise whole components with the slash before them. -/
def trimIdle (fixed : Nat) : Nat → List Char → List Char
  | 0, text => text
  | fuel + 1, text =>
    if text.length ≤ fixed then text
    else
      let last := (text.reverse.takeWhile (· ≠ '/')).reverse
      let last := last.drop (fixed - (text.length - last.length))
      if isIdle last then trimIdle fixed fuel (text.take (text.length - max 1 last.length))
      else text

/-- The number of characters at the start that are a component of their own: the slash of an
absolute path or a `.`. -/
def fixedLength (text : List Char) : Nat :=
  match text with
  | '/' :: _ => 1
  | '.' :: '/' :: _ => 1
  | ['.'] => 1
  | _ => 0

/-- The path without its last component and what trails it, as it is written. The root and the
empty path have none. -/
def parent? (path : Path) : Option Path :=
  let text := path.toList
  let fixed := fixedLength text
  let trimmed := trimIdle fixed (text.length + 1) text
  if trimmed.length ≤ fixed then
    if fixed = 1 ∧ text.head? = some '.' then some "" else none
  else
    let last := (trimmed.reverse.takeWhile (· ≠ '/')).reverse
    let before := trimmed.take (trimmed.length - last.length)
    some (String.ofList (trimIdle fixed (text.length + 1) before))

/-- A name inside a folder. -/
def join (folder : Path) (name : String) : Path :=
  if folder = "" then name
  else if folder.toList.getLast? = some '/' then folder ++ name
  else folder ++ "/" ++ name

end Path

end EditorFormat.Files
