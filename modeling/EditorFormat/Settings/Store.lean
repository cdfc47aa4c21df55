import EditorFormat.Files.FileSystem
import EditorFormat.Json.Reader
import EditorFormat.Settings.Page

/-!
# The settings store

The store holds the current settings, writes every change to a file before it takes effect, and
counts the changes. A handle follows the store and knows which change it saw last, also after the
store is gone.
-/

namespace EditorFormat

open Files (Path FileError Action)

/-- The settings that a store publishes to its handles. -/
structure Feed where
  current : Settings
  /-- How often the settings were replaced. -/
  changes : Nat
  /-- Whether the store still exists. -/
  isOpen : Bool
deriving Inhabited

namespace Feed

/-- Publish new settings. -/
def publish (feed : Feed) (settings : Settings) : Feed :=
  { feed with current := settings, changes := feed.changes + 1 }

/-- No further settings are published. -/
def close (feed : Feed) : Feed :=
  { feed with isOpen := false }

end Feed

/-- A view of a feed: the number of changes it has seen. -/
structure Handle where
  seen : Nat
deriving DecidableEq, Repr, Inhabited

/-- What a handle finds that waits for a change. -/
inductive Wakeup where
  /-- There was a change, which is now seen. -/
  | changed
  /-- The store is gone and there is nothing to wait for. -/
  | closed
  /-- Nothing has changed yet. -/
  | pending
deriving DecidableEq, Repr

namespace Handle

/-- A handle that has seen all there was. -/
def subscribe (feed : Feed) : Handle :=
  ⟨feed.changes⟩

/-- Whether there is an unseen change of a store that still exists. -/
def hasChanged (handle : Handle) (feed : Feed) : Bool :=
  feed.isOpen && handle.seen ≠ feed.changes

/-- Wait for a change. An unseen change is found even when the store is gone. -/
def awaitChange (handle : Handle) (feed : Feed) : Wakeup × Handle :=
  if handle.seen ≠ feed.changes then (.changed, subscribe feed)
  else (if feed.isOpen then .pending else .closed, handle)

end Handle

/-- Why settings are neither read nor written. -/
inductive StoreError where
  | io (path : Path) (error : FileError)
  /-- There is no folder for configuration. -/
  | noFolder
  | setting (error : SettingError)

/-- The wording of an error, given the words of the system for a file. -/
def StoreError.message (words : FileError → String) : StoreError → String
  | .io path error => "failed to access settings file " ++ path ++ ": " ++ words error
  | .noFolder => "config directory not found"
  | .setting error => error.message

/-- The owner of the settings. Without a path they are kept in memory only. -/
structure Store where
  path : Option Path
  feed : Feed
deriving Inhabited

namespace Store

/-- The settings now. -/
def current (store : Store) : Settings :=
  store.feed.current

/-- A store that starts with the given settings. -/
def start (path : Option Path) (settings : Settings) : Store :=
  ⟨path, ⟨settings, 0, true⟩⟩

/-- A store that is never written to a file. -/
def inMemory (settings : Settings) : Store :=
  start none settings

/-- The place of the settings file under the folder for configuration. -/
def defaultPath (configFolder : Path) : Path :=
  (configFolder.join "prettify").join "settings.json"

/-- Failures of file access, told with a path. -/
def accessing {α : Type} (path : Path) (action : Action FileError α) : Action StoreError α :=
  ExceptT.adapt (.io path) action

/-- Write settings to the file, in a folder that is made if need be. -/
def save (path : Path) (settings : Settings) : Action StoreError Unit := do
  match path.parent? with
  | none => pure ()
  | some folder => accessing folder (Action.makeAll folder)
  accessing path (Action.writeText path settings.text)

/-- The value that is kept in a file, if there is one that can be read as JSON. Only a missing
file may be unreadable. -/
def persisted? (path : Path) : Action StoreError (Option Json.Value) := do
  match (← get).readText path with
  | .ok text => pure (Json.Value.read text).toOption
  | .error .notFound => pure none
  | .error error => throw (.io path error)

/-- Open the store of a settings file. When it holds no settings of the current version, the
defaults are written to it. -/
def openAt (path : Path) : Action StoreError Store := do
  match Settings.ofPersisted? (← persisted? path) with
  | some settings => pure (start (some path) settings)
  | none =>
    save path .initial
    pure (start (some path) .initial)

/-- Open the store of the settings file under the folder for configuration, if there is one. -/
def load : Option Path → Action StoreError Store
  | none => throw .noFolder
  | some configFolder => openAt (defaultPath configFolder)

/-- Replace the settings: write them, then publish them. -/
def replace (store : Store) (settings : Settings) : Action StoreError Store := do
  match store.path with
  | none => pure ()
  | some path => save path settings
  pure { store with feed := store.feed.publish settings }

/-- Change one setting by its name. -/
def set (store : Store) (name : String) (value : Json.Value) : Action StoreError Store := do
  match store.current.assign name value with
  | .error error => throw (.setting error)
  | .ok settings => store.replace settings

end Store

end EditorFormat
