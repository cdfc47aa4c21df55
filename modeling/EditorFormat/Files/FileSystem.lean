import EditorFormat.Files.Path

/-!
# Files

The files of a machine, and the directory that a process works in. A path is followed name by name,
from the root when it starts with a slash and otherwise from that directory, so a name inside a file
is an error. A `Disk` is what a reader of files sees of them.
-/

namespace EditorFormat.Files

/-- What a name in a directory stands for. -/
inductive Entry where
  | file (content : ByteArray)
  | directory
deriving Inhabited

/-- Why a file is not read or written. -/
inductive FileError where
  | notFound
  | notADirectory
  | isADirectory
  | alreadyExists
  | invalidData
deriving DecidableEq, Repr, Inhabited

/-- The name of an error's kind. -/
def FileError.name : FileError → String
  | .notFound => "NotFound"
  | .notADirectory => "NotADirectory"
  | .isADirectory => "IsADirectory"
  | .alreadyExists => "AlreadyExists"
  | .invalidData => "InvalidData"

/-- The names on the way from the root to a file. -/
abbrev Location := List String

/-- Files and directories, and the one where paths start that do not start at the root. -/
structure FileSystem where
  /-- The current directory. -/
  current : Location
  /-- What is at a location, if anything. -/
  entry? : Location → Option Entry

namespace FileSystem

/-- A root with nothing in it, which is the current directory. -/
def empty : FileSystem where
  current := []
  entry? location := if location = [] then some .directory else none

instance : Inhabited FileSystem :=
  ⟨empty⟩

/-- Put an entry at a location. -/
def put (files : FileSystem) (location : Location) (entry : Entry) : FileSystem :=
  { files with entry? := fun other => if other = location then some entry else files.entry? other }

/-- Follow the names of a path. Each must be in a directory. The root is around itself. -/
def follow (files : FileSystem) : Location → List String → Except FileError Location
  | location, [] => .ok location
  | location, name :: rest =>
    match files.entry? location with
    | none => .error .notFound
    | some (.file _) => .error .notADirectory
    | some .directory =>
      if name = ".." then files.follow location.dropLast rest
      else files.follow (location ++ [name]) rest

/-- The names of a path. -/
def names (path : Path) : List String :=
  path.components.filterMap fun
    | .name text => some text
    | _ => none

/-- Whether a path must lead to a directory, because a slash or a `.` trails it. -/
def needsDirectory (path : Path) : Bool :=
  match path.toList.reverse with
  | '/' :: _ => true
  | '.' :: '/' :: _ => true
  | _ => false

/-- Where a path leads. Something may be missing there. The empty path leads nowhere. -/
def resolve (files : FileSystem) (path : Path) : Except FileError Location :=
  if path = "" then .error .notFound
  else if path.components.head? = some .root then files.follow [] (names path)
  else files.follow files.current (names path)

/-- What a path leads to. -/
def find (files : FileSystem) (path : Path) : Except FileError Entry := do
  match files.entry? (← files.resolve path) with
  | none => throw .notFound
  | some .directory => pure .directory
  | some (.file content) =>
    if needsDirectory path then throw .notADirectory else pure (.file content)

/-- Whether a path leads to a file that is no directory. -/
def isFile (files : FileSystem) (path : Path) : Bool :=
  match files.find path with
  | .ok (.file _) => true
  | _ => false

/-- Whether a path leads to a directory. -/
def isDirectory (files : FileSystem) (path : Path) : Bool :=
  match files.find path with
  | .ok .directory => true
  | _ => false

/-- The text of a file. -/
def readText (files : FileSystem) (path : Path) : Except FileError String := do
  match ← files.find path with
  | .directory => throw .isADirectory
  | .file content =>
    match String.fromUTF8? content with
    | some text => pure text
    | none => throw .invalidData

/-- Write a file, which need not exist. It is assumed that there is room for what is written and
that no rights are missing: a file is written as a whole, or not at all for an error above. -/
def write (files : FileSystem) (path : Path) (content : ByteArray) :
    Except FileError FileSystem := do
  let location ← files.resolve path
  match files.entry? location with
  | some .directory => throw .isADirectory
  | some (.file _) =>
    if needsDirectory path then throw .notADirectory
    else pure (files.put location (.file content))
  | none =>
    if needsDirectory path then throw .isADirectory
    else pure (files.put location (.file content))

/-- Write a text to a file, which need not exist. -/
def writeText (files : FileSystem) (path : Path) (text : String) : Except FileError FileSystem :=
  files.write path text.toUTF8

/-- Make a directory in an existing one. -/
def makeDirectory (files : FileSystem) (path : Path) : Except FileError FileSystem := do
  let location ← files.resolve path
  match files.entry? location with
  | some _ => throw .alreadyExists
  | none => pure (files.put location .directory)

end FileSystem

/-- What is asked of files by their paths. -/
structure Disk where
  /-- Whether a path leads to a file that is no directory. -/
  isFile : Path → Bool
  /-- The bytes of a file. -/
  content : Path → Except FileError ByteArray

/-- The text of a file, whose bytes must be UTF-8. -/
def Disk.readText (disk : Disk) (path : Path) : Except FileError String := do
  match String.fromUTF8? (← disk.content path) with
  | some text => pure text
  | none => throw .invalidData

/-- The files of a file system. -/
def FileSystem.disk (files : FileSystem) : Disk where
  isFile := files.isFile
  content path := do
    match ← files.find path with
    | .directory => throw .isADirectory
    | .file content => pure content

/-- A computation that changes files and may fail with an `ε`. What was changed before it fails
stays changed. -/
abbrev Action (ε α : Type) := ExceptT ε (StateM FileSystem) α

namespace Action

/-- Change the files in one step, or fail and leave them as they are. It is assumed, as it is for a
`write`, that no step stops halfway. -/
def update (change : FileSystem → Except FileError FileSystem) : Action FileError Unit := do
  set (← change (← get))

/-- Make a directory whose surroundings exist. A directory that is there already is kept. -/
def makeOrKeep (path : Path) : Action FileError Unit :=
  tryCatch (update (·.makeDirectory path)) fun error => do
    if (← get).isDirectory path then pure () else throw error

/-- Make a directory and those around it. -/
def makeDirectories : Nat → Path → Action FileError Unit
  | 0, _ => throw .notFound
  | fuel + 1, path => do
    if path = "" then return
    match (← get).makeDirectory path, path.parent? with
    | .error .notFound, none => throw .notFound
    | .error .notFound, some parent =>
      makeDirectories fuel parent
      makeOrKeep path
    | _, _ => makeOrKeep path

/-- Make a directory and those around it, unless they exist. -/
def makeAll (path : Path) : Action FileError Unit :=
  makeDirectories (path.length + 1) path

/-- Write a text to a file. -/
def writeText (path : Path) (text : String) : Action FileError Unit :=
  update (·.writeText path text)

end Action

end EditorFormat.Files
