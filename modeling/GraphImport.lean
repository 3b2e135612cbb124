import GraphImport.CommandLine.Command
import GraphImport.CommandLine.Run
import GraphImport.CommandLine.Switch
import GraphImport.Document.Calendar
import GraphImport.Document.Value
import GraphImport.EnvFile.Expansion
import GraphImport.EnvFile.Reader
import GraphImport.Files.Path
import GraphImport.Files.Tree
import GraphImport.Json.Printer
import GraphImport.Json.Reader
import GraphImport.Log.Level
import GraphImport.Log.Record
import GraphImport.Log.Session
import GraphImport.Log.Template
import GraphImport.Main
import GraphImport.Number.Decimal
import GraphImport.Number.Integer
import GraphImport.Number.Rounded
import GraphImport.Number.Shortest
import GraphImport.Options.Basic
import GraphImport.Options.Layers
import GraphImport.Options.Literal
import GraphImport.Options.Secret
import GraphImport.Report.Output
import GraphImport.Rules.Cardinality
import GraphImport.Rules.Examination
import GraphImport.Rules.OrderBy
import GraphImport.Rules.Problem
import GraphImport.Spec.Basic
import GraphImport.Spec.Dump
import GraphImport.Spec.File
import GraphImport.Spec.Flaw
import GraphImport.Spec.Lookup
import GraphImport.Spec.Reader
import GraphImport.Spec.Vocabulary
import GraphImport.Text.Base64
import GraphImport.Text.Blank
import GraphImport.Text.Capital
import GraphImport.Text.Cursor
import GraphImport.Text.Lines
import GraphImport.Text.Printable
import GraphImport.Text.Quoted
import GraphImport.Text.Similarity
import GraphImport.Text.Styling
import GraphImport.Text.Utf8
import GraphImport.Toml.Fault
import GraphImport.Toml.Reader
import GraphImport.Toml.Scalar
import GraphImport.Toml.Table
import GraphImport.Yaml.Fault
import GraphImport.Yaml.Lexer
import GraphImport.Yaml.Marker
import GraphImport.Yaml.Node
import GraphImport.Yaml.NodeValue
import GraphImport.Yaml.Place
import GraphImport.Yaml.Reader
import GraphImport.Yaml.Scalar
import GraphImport.Yaml.ScalarValue
import GraphImport.Yaml.Tag
import GraphImport.Yaml.Token
import GraphImport.Proofs.Rules.Feeds
import GraphImport.Proofs.Rules.Report
import GraphImport.Proofs.Rules.Independence
import GraphImport.Proofs.Rules.FanIn
import GraphImport.Proofs.Options.Secret
import GraphImport.Proofs.Rules.OrderBy
import GraphImport.Proofs.Rules.Soundness
import GraphImport.Proofs.Options.Verdict
import GraphImport.Proofs.Json.Strings
import GraphImport.Proofs.Report.Line
import GraphImport.Proofs.CommandLine.Verdict
import GraphImport.Proofs.CommandLine.Loading
import GraphImport.Proofs.Rules.Reordering
import GraphImport.Proofs.Rules.Supply
import GraphImport.Proofs.Json.Breaks
import GraphImport.Proofs.Spec.JsonDocuments
import GraphImport.Proofs.Spec.Schema
import GraphImport.Proofs.Spec.Structure
import GraphImport.Proofs.Spec.RoundTrip
import GraphImport.Proofs.Toml.Refusals
import GraphImport.Proofs.Toml.Values
import GraphImport.Proofs.Options.Readings
import GraphImport.Proofs.Options.Layers
import GraphImport.Proofs.Options.Verbatim
import GraphImport.Proofs.CommandLine.Precedence
import GraphImport.Proofs.CommandLine.JsonOutput
import GraphImport.Proofs.Rules.Cardinality
import GraphImport.Proofs.Spec.Rewording
import GraphImport.Proofs.Log.Examination
import GraphImport.Proofs.Rules.ActiveTargets
import GraphImport.Proofs.Rules.Completion
import GraphImport.Proofs.Rules.Quotation
import GraphImport.Proofs.Rules.Calculated
import GraphImport.Proofs.Rules.Sorting
import GraphImport.Proofs.Options.Reference
import GraphImport.Proofs.Rules.Merging
import GraphImport.Proofs.Rules.Renaming
import GraphImport.Proofs.Rules.Readers
import GraphImport.Proofs.Text.LineEnds
import GraphImport.Proofs.Text.Styling
import GraphImport.Proofs.Rules.Texts
import GraphImport.Proofs.CommandLine.Listing
import GraphImport.Proofs.CommandLine.Verbosity
import GraphImport.Proofs.Rules.Needs
import GraphImport.Proofs.Log.Calls
import GraphImport.Proofs.Log.Emission
import GraphImport.Proofs.Rules.Notes
import GraphImport.Proofs.Log.Narration
