import EditorFormat.Config.Format

/-!
# The config of a file

The config of a file is looked for in one folder: the deepest project folder around the file, or
the file's own folder. All names of `fileNames` are probed there at once, and the probes complete
in any order. The first name that is a file counts; it is never passed over for a later one, even
when it cannot be read.
-/

namespace EditorFormat.Config

open Files (Path Disk FileSystem)

/-- The deeper of two folders; the second one when they are equally deep. -/
def deeper (first second : Path) : Path :=
  if second.components.length < first.components.length then first else second

/-- The folder in which the config of a file is looked for. -/
def searchRoot (file : Path) (folders : List Path) : Path :=
  match folders.filter fun folder => file.startsWith folder with
  | [] => file.parent?.getD ""
  | folder :: later => later.foldl deeper folder

/-- A probe that has completed: the place of its name in `fileNames`, and whether there is a file of
that name. -/
abbrev Probe := Nat × Bool

/-- The probes for all names in a folder. -/
def probes (disk : Disk) (root : Path) : List Probe :=
  fileNames.zipIdx.map fun named => (named.2, disk.isFile (root.join named.1))

/-- The place of the best file so far, after one more probe. -/
def better (best : Option Nat) (probe : Probe) : Option Nat :=
  if probe.2 then some (best.elim probe.1 (min · probe.1)) else best

/-- The config file in a folder whose probes have completed one after the other. -/
def foundBy? (root : Path) (completed : List Probe) : Option Path :=
  (completed.foldl better none).bind fun place => fileNames[place]?.map root.join

/-- The config file in a folder. -/
def findFile? (files : FileSystem) (root : Path) : Option Path :=
  foundBy? root (probes files.disk root)

/-- A config that was found and read. -/
structure Resolved where
  path : Path
  format : Format
  options : FormatOptions
deriving Inhabited

/-- The name at the end of a path. -/
def lastName (path : Path) : String :=
  String.ofList (path.toList.reverse.takeWhile (· ≠ '/')).reverse

/-- The config in a file, or why it is not read. -/
def readFile (words : Wording) (disk : Disk) (path : Path) : Except ConfigError Resolved := do
  let format := (Format.ofFileName? (lastName path)).getD .json
  let text ← (disk.readText path).mapError fun error =>
    ⟨path, .unreadable error (words.file error)⟩
  let options ← (parse words format text).mapError fun cause => ⟨path, cause⟩
  return ⟨path, format, options⟩

/-- The config in a folder whose probes have completed, or why it is not read. There is none when no
config file is found. -/
def resolveIn (words : Wording) (disk : Disk) (root : Path) (completed : List Probe) :
    Except ConfigError (Option Resolved) :=
  match foundBy? root completed with
  | none => .ok none
  | some path => some <$> readFile words disk path

/-- The config of a file. -/
def resolve (words : Wording) (files : FileSystem) (file : Path) (folders : List Path) :
    Except ConfigError (Option Resolved) :=
  let root := searchRoot file folders
  resolveIn words files.disk root (probes files.disk root)

/-- The config of a file for a caller who waits for it, which a task that must not wait may not
do. -/
def resolveWaiting (words : Wording) (mayWait : Bool) (files : FileSystem) (file : Path)
    (folders : List Path) : Except ConfigError (Option Resolved) :=
  if mayWait then resolve words files file folders else .error ⟨file, .mustNotWait⟩

end EditorFormat.Config
