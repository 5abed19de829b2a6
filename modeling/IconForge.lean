import IconForge.Build.Fault
import IconForge.Build.Run
import IconForge.Build.Schedule
import IconForge.CommandLine.Command
import IconForge.CommandLine.Grammar
import IconForge.CommandLine.Reading
import IconForge.CommandLine.Run
import IconForge.Component.Element
import IconForge.Component.Index
import IconForge.Component.Literal
import IconForge.Component.Name
import IconForge.Component.Property
import IconForge.Component.Source
import IconForge.Component.Static
import IconForge.Component.Style
import IconForge.Decimal.Nearest
import IconForge.Decimal.Notation
import IconForge.Decimal.Reading
import IconForge.Decimal.Rounded
import IconForge.Decimal.Shortest
import IconForge.Disk.Basic
import IconForge.Disk.Copy
import IconForge.Disk.Edit
import IconForge.Disk.Platform
import IconForge.Disk.Select
import IconForge.Json.Read
import IconForge.Json.Value
import IconForge.Json.Write
import IconForge.Log.Message
import IconForge.Log.Record
import IconForge.Log.Setup
import IconForge.Main
import IconForge.Markup.Attributes
import IconForge.Markup.Event
import IconForge.Markup.Node
import IconForge.Markup.Parse
import IconForge.Path.Basic
import IconForge.Path.Home
import IconForge.Path.Pattern
import IconForge.Proofs.Build.Bench
import IconForge.Proofs.Build.Coupled
import IconForge.Proofs.Build.Discovery
import IconForge.Proofs.Build.Failure
import IconForge.Proofs.Build.Hygiene
import IconForge.Proofs.Build.Index
import IconForge.Proofs.Build.Input
import IconForge.Proofs.Build.Local
import IconForge.Proofs.Build.Names
import IconForge.Proofs.Build.Optimization
import IconForge.Proofs.Build.Optimizer
import IconForge.Proofs.Build.Output
import IconForge.Proofs.Build.OutputTree
import IconForge.Proofs.Build.Preserve
import IconForge.Proofs.Build.Rerun
import IconForge.Proofs.Build.Session
import IconForge.Proofs.Build.Stages
import IconForge.Proofs.Build.Success
import IconForge.Proofs.Build.Targets
import IconForge.Proofs.Build.Timing
import IconForge.Proofs.CommandLine.Agreement
import IconForge.Proofs.CommandLine.Layout
import IconForge.Proofs.CommandLine.Overriding
import IconForge.Proofs.CommandLine.Reading
import IconForge.Proofs.CommandLine.Step
import IconForge.Proofs.CommandLine.Trimming
import IconForge.Proofs.CommandLine.Verbosity
import IconForge.Proofs.CommandLine.Wishes
import IconForge.Proofs.Component.Camel
import IconForge.Proofs.Component.Everywhere
import IconForge.Proofs.Component.Inert
import IconForge.Proofs.Component.Literal
import IconForge.Proofs.Component.Name
import IconForge.Proofs.Component.Numeral
import IconForge.Proofs.Component.Pascal
import IconForge.Proofs.Component.Quoting
import IconForge.Proofs.Component.Reader
import IconForge.Proofs.Component.Reference
import IconForge.Proofs.Component.RoundTrip
import IconForge.Proofs.Component.Segments
import IconForge.Proofs.Component.Size
import IconForge.Proofs.Component.Style
import IconForge.Proofs.Component.Translation
import IconForge.Proofs.Component.Value
import IconForge.Proofs.Disk.Alike
import IconForge.Proofs.Disk.Change
import IconForge.Proofs.Disk.Clearing
import IconForge.Proofs.Disk.Copying
import IconForge.Proofs.Disk.Extension
import IconForge.Proofs.Disk.Lookup
import IconForge.Proofs.Disk.Overlay
import IconForge.Proofs.Disk.Place
import IconForge.Proofs.Disk.Renewal
import IconForge.Proofs.Disk.Select
import IconForge.Proofs.Distinct
import IconForge.Proofs.Json.RoundTrip
import IconForge.Proofs.Markup.Attributes
import IconForge.Proofs.Markup.Document
import IconForge.Proofs.Markup.Rebuild
import IconForge.Proofs.Path.Pattern
import IconForge.Proofs.Path.Written
import IconForge.Proofs.Schedule.Budget
import IconForge.Proofs.Schedule.End
import IconForge.Proofs.Schedule.Failures
import IconForge.Proofs.Schedule.Layout
import IconForge.Proofs.Schedule.Order
import IconForge.Proofs.Schedule.Record
import IconForge.Proofs.Schedule.Sound
import IconForge.Proofs.Schedule.Turns
import IconForge.Proofs.Settings.Defaults
import IconForge.Proofs.Settings.Loading
import IconForge.Proofs.Settings.Overriding
import IconForge.Proofs.Settings.Revising
import IconForge.Proofs.Text.Trim
import IconForge.Proofs.Text.Utf8
import IconForge.Proofs.Tool.Bench
import IconForge.Proofs.Tool.Plugins
import IconForge.Proofs.Tool.Svgo
import IconForge.Proofs.Traverse
import IconForge.Proofs.Workspace.Alike
import IconForge.Proofs.Workspace.LogFile
import IconForge.Proofs.Workspace.Logging
import IconForge.Proofs.Workspace.Shown
import IconForge.Service.Body
import IconForge.Service.Call
import IconForge.Service.Run
import IconForge.Settings.Basic
import IconForge.Settings.File
import IconForge.Settings.Revision
import IconForge.Text.Base64
import IconForge.Text.Blank
import IconForge.Text.Cased
import IconForge.Text.Cut
import IconForge.Text.Diagnostic
import IconForge.Text.Digit
import IconForge.Text.Lower
import IconForge.Text.Printable
import IconForge.Text.Utf8
import IconForge.Text.Whole
import IconForge.Tool.Bench
import IconForge.Tool.Child
import IconForge.Tool.Prettier
import IconForge.Tool.Svgo
import IconForge.Workspace.Basic
import IconForge.Workspace.Build
import IconForge.Workspace.Logging
import IconForge.Workspace.Readers
import IconForge.Xml.Char
import IconForge.Xml.Content
import IconForge.Xml.Doctype
import IconForge.Xml.Document
import IconForge.Xml.Fault
import IconForge.Xml.Prolog
import IconForge.Xml.Scan
import IconForge.Xml.Source
import IconForge.Yaml.Cursor
import IconForge.Yaml.Data
import IconForge.Yaml.Document
import IconForge.Yaml.Node
import IconForge.Yaml.Scalar
import IconForge.Yaml.Tag
import IconForge.Yaml.Text
import IconForge.Yaml.Timestamp
import IconForge.Yaml.Token
