import EditorFormat.Bridge.Basic
import EditorFormat.Bridge.Reply
import EditorFormat.Bridge.Script
import EditorFormat.Config.Format
import EditorFormat.Config.JsonText
import EditorFormat.Config.Resolve
import EditorFormat.Config.Script
import EditorFormat.Config.TomlText
import EditorFormat.Config.YamlText
import EditorFormat.Decimal.Binary
import EditorFormat.Decimal.Shortest
import EditorFormat.Decimal.Single
import EditorFormat.Editor.Basic
import EditorFormat.Editor.Command
import EditorFormat.Editor.Notifier
import EditorFormat.Engine.Formatter
import EditorFormat.Engine.Result
import EditorFormat.Entries
import EditorFormat.FileName
import EditorFormat.Files.FileSystem
import EditorFormat.Files.Path
import EditorFormat.Json.Decode
import EditorFormat.Json.DecodeError
import EditorFormat.Json.Printer
import EditorFormat.Json.Reader
import EditorFormat.Json.Skim
import EditorFormat.Json.Value
import EditorFormat.Json5.Reader
import EditorFormat.Log.ErrorLog
import EditorFormat.Log.SourceLocation
import EditorFormat.Log.Stamp
import EditorFormat.Options.CursorOptions
import EditorFormat.Options.FormatOptions
import EditorFormat.Options.Key
import EditorFormat.Proofs.Editor.Result
import EditorFormat.Proofs.Entries
import EditorFormat.Proofs.Session.Correlation
import EditorFormat.Proofs.Session.Delivery
import EditorFormat.Proofs.Session.Late
import EditorFormat.Proofs.Session.Modes
import EditorFormat.Proofs.Session.Outcome
import EditorFormat.Proofs.Session.Paths
import EditorFormat.Proofs.Session.Run
import EditorFormat.Proofs.Session.Selection
import EditorFormat.Proofs.Text.Positions
import EditorFormat.Proofs.Text.Rows
import EditorFormat.Proofs.Text.Splice
import EditorFormat.Proofs.Text.Units
import EditorFormat.Proofs.Worker.Answers
import EditorFormat.Session.Basic
import EditorFormat.Session.Commands
import EditorFormat.Session.Dispatch
import EditorFormat.Session.Responses
import EditorFormat.Settings.Basic
import EditorFormat.Settings.Page
import EditorFormat.Settings.Store
import EditorFormat.Text.Blank
import EditorFormat.Text.Debug
import EditorFormat.Text.Digit
import EditorFormat.Text.Letter
import EditorFormat.Text.Lines
import EditorFormat.Text.Mark
import EditorFormat.Text.Position
import EditorFormat.Text.Printable
import EditorFormat.Text.Range
import EditorFormat.Text.Selection
import EditorFormat.Text.Units
import EditorFormat.Text.Utf8
import EditorFormat.Text.Word
import EditorFormat.Toml.Reader
import EditorFormat.Toml.Scalar
import EditorFormat.Toml.Table
import EditorFormat.Toml.Value
import EditorFormat.Version
import EditorFormat.Worker.Message
import EditorFormat.Worker.Queue
import EditorFormat.Yaml.Content
import EditorFormat.Yaml.Node
import EditorFormat.Yaml.Place
import EditorFormat.Yaml.Scalar
import EditorFormat.Yaml.Scalars
import EditorFormat.Yaml.Tag
import EditorFormat.Yaml.Token
import EditorFormat.Proofs.Options.Members
import EditorFormat.Proofs.Options.Wire
import EditorFormat.Proofs.Bridge.Cursor
import EditorFormat.Proofs.Json.Reads
import EditorFormat.Proofs.Json.Numbers
import EditorFormat.Proofs.Json.Steps
import EditorFormat.Proofs.Json.Readback
import EditorFormat.Proofs.Settings.Wire
import EditorFormat.Proofs.Settings.Overlay
import EditorFormat.Proofs.Files.Writing
import EditorFormat.Proofs.Settings.Storing
import EditorFormat.Proofs.Settings.Reload
import EditorFormat.Proofs.Json.Records
import EditorFormat.Proofs.Worker.Wire
import EditorFormat.Proofs.Worker.Stream
import EditorFormat.Proofs.Session.Alerts
import EditorFormat.Proofs.Config.Resolution
import EditorFormat.Proofs.Session.Closed
import EditorFormat.Proofs.Log.Locations
import EditorFormat.Proofs.Session.Jump
import EditorFormat.Proofs.Json.Grammar
import EditorFormat.Proofs.Config.Literals
import EditorFormat.Proofs.Json5.Readback
import EditorFormat.Proofs.Config.Exports
import EditorFormat.Proofs.Config.Continuations
import EditorFormat.Proofs.Json.Compact
import EditorFormat.Proofs.Config.JsonText
import EditorFormat.Proofs.Config.Spellings
import EditorFormat.Proofs.Text.Order
import EditorFormat.Proofs.Text.Touched
import EditorFormat.Proofs.Session.Strays
import EditorFormat.Proofs.Session.Commuting
import EditorFormat.Proofs.Settings.Keys
import EditorFormat.Proofs.Settings.Assigning
import EditorFormat.Proofs.Files.Overwriting
import EditorFormat.Proofs.Settings.Changing
import EditorFormat.Proofs.Settings.Opening
import EditorFormat.Proofs.Options.KeyByKey
import EditorFormat.Proofs.Session.Sources
import EditorFormat.Proofs.Session.Polling
import EditorFormat.Proofs.Session.Idle
import EditorFormat.Proofs.Log.History
import EditorFormat.Proofs.Log.Pairs
import EditorFormat.Proofs.Files.Parents
import EditorFormat.Proofs.Config.Nearest
import EditorFormat.Proofs.Json5.Grammar
import EditorFormat.Proofs.Json5.Tokens
import EditorFormat.Proofs.Json5.Numbers
import EditorFormat.Proofs.Json5.Values
import EditorFormat.Proofs.Config.Scanning
import EditorFormat.Proofs.Config.Brackets
import EditorFormat.Proofs.Config.Comments
import EditorFormat.Proofs.Text.Undo
