import LoginSettings.Calendar
import LoginSettings.Calendar.Instant
import LoginSettings.Cli.Arguments
import LoginSettings.Cli.Assignment
import LoginSettings.Cli.Edit
import LoginSettings.Cli.Progress
import LoginSettings.Cli.Run
import LoginSettings.Decimal.Binary64
import LoginSettings.Decimal.Digits
import LoginSettings.Decimal.Layout
import LoginSettings.Decimal.Shortest
import LoginSettings.Decimal.Spelling
import LoginSettings.Digest.Sha256
import LoginSettings.Document
import LoginSettings.Document.Edit
import LoginSettings.Document.Format
import LoginSettings.Document.Order
import LoginSettings.Document.Storage
import LoginSettings.Document.Value
import LoginSettings.Files.Tree
import LoginSettings.Json.Canonical
import LoginSettings.Json.Cursor
import LoginSettings.Json.Decode
import LoginSettings.Json.Fault
import LoginSettings.Json.Node
import LoginSettings.Json.Printer
import LoginSettings.Json.Scalar
import LoginSettings.Log.Directive
import LoginSettings.Log.Event
import LoginSettings.Log.Filter
import LoginSettings.Main
import LoginSettings.Pattern.Atom
import LoginSettings.Pattern.Bracket
import LoginSettings.Pattern.Expression
import LoginSettings.Role.Validation
import LoginSettings.Session
import LoginSettings.Session.History
import LoginSettings.Settings.Basic
import LoginSettings.Settings.Derive
import LoginSettings.Settings.Field
import LoginSettings.Settings.Keywords
import LoginSettings.Settings.Location
import LoginSettings.Settings.Patch
import LoginSettings.Text.Alphanumeric
import LoginSettings.Text.Blank
import LoginSettings.Text.Hex
import LoginSettings.Text.Place
import LoginSettings.Text.Quoted
import LoginSettings.Text.Ranges
import LoginSettings.Text.Split
import LoginSettings.Text.Units
import LoginSettings.Text.Unprintable
import LoginSettings.Text.Utf8
import LoginSettings.Toml.Reader
import LoginSettings.Toml.Scalar
import LoginSettings.Toml.Table
import LoginSettings.Tool.Config
import LoginSettings.Tool.Layers
import LoginSettings.Tool.Load
import LoginSettings.Widget.Options
import LoginSettings.Widget.Page
import LoginSettings.Wire.Effective
import LoginSettings.Wire.Role
import LoginSettings.Wire.Settings
import LoginSettings.Wire.Tool
import LoginSettings.Wire.Widget
import LoginSettings.Yaml.Block
import LoginSettings.Yaml.Cursor
import LoginSettings.Yaml.Lexer
import LoginSettings.Yaml.Node
import LoginSettings.Yaml.Plain
import LoginSettings.Yaml.Printer
import LoginSettings.Yaml.Quoted
import LoginSettings.Yaml.Reader
import LoginSettings.Yaml.Resolution
import LoginSettings.Yaml.Style
import LoginSettings.Yaml.Token
import LoginSettings.Proofs.Document.Lookup
import LoginSettings.Proofs.Settings.Keys
import LoginSettings.Proofs.Settings.Places
import LoginSettings.Proofs.Settings.Written
import LoginSettings.Proofs.Settings.PatchFrame
import LoginSettings.Proofs.Settings.PatchReading
import LoginSettings.Proofs.Session.Disabling
import LoginSettings.Proofs.Settings.PatchAgain
import LoginSettings.Proofs.Document.Commute
import LoginSettings.Proofs.Settings.PatchCombine
import LoginSettings.Proofs.Session.Runs
import LoginSettings.Proofs.Files.Write
import LoginSettings.Proofs.Cli.Change
import LoginSettings.Proofs.Cli.Quiet
import LoginSettings.Proofs.Json.Scalars
import LoginSettings.Proofs.Text.Utf8
import LoginSettings.Proofs.Json.Readers
import LoginSettings.Proofs.Json.Reading
import LoginSettings.Proofs.Json.Decoding
import LoginSettings.Proofs.Wire.Settings
import LoginSettings.Proofs.Document.InOrder
import LoginSettings.Proofs.Json.Spelling
import LoginSettings.Proofs.Cli.Shown
import LoginSettings.Proofs.Document.JsonText
import LoginSettings.Proofs.Tool.Layers
import LoginSettings.Proofs.Json.Records
import LoginSettings.Proofs.Tool.Settings
import LoginSettings.Proofs.Tool.Effective
import LoginSettings.Proofs.Document.Reloading
import LoginSettings.Proofs.Decimal.Whole
import LoginSettings.Proofs.Text.Units
import LoginSettings.Proofs.Document.Reordering
import LoginSettings.Proofs.Json.Canonical
import LoginSettings.Proofs.Document.Digest
import LoginSettings.Proofs.Widget.Runs
import LoginSettings.Proofs.Widget.Secrecy
import LoginSettings.Proofs.Json.StandsFor
import LoginSettings.Proofs.Json.Tagged
import LoginSettings.Proofs.Wire.Tool
import LoginSettings.Proofs.Wire.Widget
import LoginSettings.Proofs.Wire.Role
import LoginSettings.Proofs.Wire.Inverse
import LoginSettings.Proofs.Settings.PatchKeys
import LoginSettings.Proofs.Document.Removal
import LoginSettings.Proofs.Settings.PatchKeywords
import LoginSettings.Proofs.Role.Validation
import LoginSettings.Proofs.Settings.Difference
import LoginSettings.Proofs.Text.Trimming
import LoginSettings.Proofs.Text.Splitting
import LoginSettings.Proofs.Cli.Assignments
import LoginSettings.Proofs.Settings.Keywords
import LoginSettings.Proofs.Document.Dotted
