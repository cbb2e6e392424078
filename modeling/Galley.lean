import Galley.Given.Basic
import Galley.Given.Records
import Galley.Given.Settings
import Galley.Given.Standard
import Galley.Highlight.Html
import Galley.Highlight.Report
import Galley.Highlight.Span
import Galley.Json.Compare
import Galley.Json.Decode
import Galley.Json.Encode
import Galley.Json.Value
import Galley.LineDiff.Compare
import Galley.LineDiff.Options
import Galley.LineDiff.Record
import Galley.LineDiff.Report
import Galley.LineDiff.Subsequence
import Galley.Log
import Galley.Main
import Galley.Number.Binary64
import Galley.Number.Notation
import Galley.Number.Power
import Galley.Number.Shortest
import Galley.Preset
import Galley.Proofs.Highlight.Columns
import Galley.Proofs.Highlight.Numbered
import Galley.Proofs.Highlight.Pattern
import Galley.Proofs.Highlight.Records
import Galley.Proofs.Highlight.Rules
import Galley.Proofs.Highlight.Table
import Galley.Proofs.Highlight.Tokens
import Galley.Proofs.Highlight.Unnumbered
import Galley.Proofs.Json.Delta
import Galley.Proofs.Json.Itself
import Galley.Proofs.Json.Located
import Galley.Proofs.Json.Mirror
import Galley.Proofs.Json.Path
import Galley.Proofs.Json.Reordered
import Galley.Proofs.Json.Same
import Galley.Proofs.Json.Step
import Galley.Proofs.Json.Unnamed
import Galley.Proofs.Json.Walk
import Galley.Proofs.Json.WellFormed
import Galley.Proofs.LineDiff.Agreement
import Galley.Proofs.LineDiff.Beginning
import Galley.Proofs.LineDiff.Hunks
import Galley.Proofs.LineDiff.Ignoring
import Galley.Proofs.LineDiff.Keys
import Galley.Proofs.LineDiff.LineEnds
import Galley.Proofs.LineDiff.Longest
import Galley.Proofs.LineDiff.Lossless
import Galley.Proofs.LineDiff.Minimal
import Galley.Proofs.LineDiff.Script
import Galley.Proofs.LineDiff.Shown
import Galley.Proofs.LineDiff.Statistics
import Galley.Proofs.LineDiff.Subsequence
import Galley.Proofs.LineDiff.Table
import Galley.Proofs.LineDiff.Unified
import Galley.Proofs.LineDiff.Windows
import Galley.Proofs.Number.Amount
import Galley.Proofs.Run.Faults
import Galley.Proofs.Run.Fields
import Galley.Proofs.Run.Options
import Galley.Proofs.Run.OutputName
import Galley.Proofs.Run.Precedence
import Galley.Proofs.Run.Session
import Galley.Proofs.Run.Tree
import Galley.Proofs.Run.Writing
import Galley.Proofs.Stylesheet.Beautified
import Galley.Proofs.Stylesheet.Chain
import Galley.Proofs.Stylesheet.Collected
import Galley.Proofs.Stylesheet.Cursor
import Galley.Proofs.Stylesheet.Depth
import Galley.Proofs.Stylesheet.Emission
import Galley.Proofs.Stylesheet.Filtered
import Galley.Proofs.Stylesheet.Findings
import Galley.Proofs.Stylesheet.Insertion
import Galley.Proofs.Stylesheet.Kept
import Galley.Proofs.Stylesheet.Layout
import Galley.Proofs.Stylesheet.Lexical
import Galley.Proofs.Stylesheet.Lines
import Galley.Proofs.Stylesheet.Locality
import Galley.Proofs.Stylesheet.Muted
import Galley.Proofs.Stylesheet.Normal
import Galley.Proofs.Stylesheet.Outline
import Galley.Proofs.Stylesheet.Phrase
import Galley.Proofs.Stylesheet.Preorder
import Galley.Proofs.Stylesheet.Reading
import Galley.Proofs.Stylesheet.RoundTrip
import Galley.Proofs.Stylesheet.Routines
import Galley.Proofs.Stylesheet.Scan
import Galley.Proofs.Stylesheet.Seams
import Galley.Proofs.Stylesheet.Semicolons
import Galley.Proofs.Stylesheet.Shape
import Galley.Proofs.Stylesheet.Skim
import Galley.Proofs.Stylesheet.Solid
import Galley.Proofs.Stylesheet.Spelling
import Galley.Proofs.Stylesheet.Truncation
import Galley.Proofs.Stylesheet.WellFormed
import Galley.Proofs.Text.Lines
import Galley.Proofs.Text.LowerCase
import Galley.Proofs.Text.Numeral
import Galley.Proofs.Text.Position
import Galley.Proofs.Text.Runs
import Galley.Proofs.Text.Words
import Galley.Run.Arguments
import Galley.Run.Libraries
import Galley.Run.Path
import Galley.Run.Request
import Galley.Run.Session
import Galley.Run.Standard
import Galley.Run.Tree
import Galley.Stylesheet.Format
import Galley.Stylesheet.Lint
import Galley.Stylesheet.Options
import Galley.Stylesheet.Parser
import Galley.Stylesheet.Printer
import Galley.Stylesheet.Rule
import Galley.Stylesheet.Token
import Galley.Text.Alphanumeric
import Galley.Text.Basic
import Galley.Text.Blank
import Galley.Text.Cased
import Galley.Text.CodeRange
import Galley.Text.Decimal
import Galley.Text.Lines
import Galley.Text.LowerCase
import Galley.Text.Position
import Galley.Text.Quoted
import Galley.Text.Utf8
import Galley.Text.Wide
import Galley.Yaml.Node
import Galley.Yaml.Place
import Galley.Yaml.Scalar
import Galley.Yaml.Token
import Galley.Yaml.Value
