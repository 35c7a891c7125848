import Keyfile.Adjacency.Machine
import Keyfile.Adjacency.Table
import Keyfile.Analyzer
import Keyfile.CommandLine.Arguments
import Keyfile.CommandLine.Run
import Keyfile.Completion.Complete
import Keyfile.Completion.Encoding
import Keyfile.Completion.Matcher
import Keyfile.Completion.Plan
import Keyfile.Completion.Resolve
import Keyfile.Data.Basic
import Keyfile.Data.Json.Printer
import Keyfile.Data.Json.Reader
import Keyfile.Data.Shape
import Keyfile.Data.Toml.Moment
import Keyfile.Data.Toml.Reader
import Keyfile.Data.Toml.Scalar
import Keyfile.Data.Toml.Table
import Keyfile.Diagnostic.Basic
import Keyfile.Diagnostic.Catalog
import Keyfile.Diagnostic.CatalogEncoding
import Keyfile.Diagnostic.Edit
import Keyfile.Diagnostic.Encoding
import Keyfile.Document.Assignment
import Keyfile.Document.Builder
import Keyfile.Document.Kind
import Keyfile.Document.Scan
import Keyfile.Document.Seek
import Keyfile.Document.Span
import Keyfile.Document.Tree
import Keyfile.Editor.Encoding
import Keyfile.Editor.LineIndex
import Keyfile.Editor.Position
import Keyfile.Editor.View
import Keyfile.Error
import Keyfile.Files.Access
import Keyfile.Files.Directory
import Keyfile.Files.Path
import Keyfile.Hover
import Keyfile.Loading
import Keyfile.Main
import Keyfile.Outline
import Keyfile.Schema.Check
import Keyfile.Schema.Encoding
import Keyfile.Schema.Entry
import Keyfile.Schema.Lookup
import Keyfile.Schema.Rule
import Keyfile.Settings
import Keyfile.Settings.Encoding
import Keyfile.Text.Alphanumeric
import Keyfile.Text.Blank
import Keyfile.Text.Bytes
import Keyfile.Text.CaseFold
import Keyfile.Text.Floating
import Keyfile.Text.Integer
import Keyfile.Text.Pieces
import Keyfile.Text.Quoted
import Keyfile.Text.Ranges
import Keyfile.Text.Unprintable
import Keyfile.Proofs.Lexemes
import Keyfile.Proofs.Lint
import Keyfile.Proofs.ScannedTokens
import Keyfile.Proofs.Lines
import Keyfile.Proofs.Boundaries
import Keyfile.Proofs.Lossless
import Keyfile.Proofs.ReportOrder
import Keyfile.Proofs.Insertion
import Keyfile.Proofs.ContainerFix
import Keyfile.Proofs.DefaultFix
import Keyfile.Proofs.AssignFix
import Keyfile.Proofs.Words
import Keyfile.Proofs.Written
import Keyfile.Proofs.MissingValue
import Keyfile.Proofs.Spacing
import Keyfile.Proofs.NameCompletion
import Keyfile.Proofs.Positions
import Keyfile.Proofs.QuickFixes
import Keyfile.Proofs.Consultation
import Keyfile.Proofs.ValueCompletion
import Keyfile.Proofs.Operations
import Keyfile.Proofs.Taking
import Keyfile.Proofs.KnownNames
import Keyfile.Proofs.Arena.Building
import Keyfile.Proofs.Arena.Walking
import Keyfile.Proofs.Arena.Answers
import Keyfile.Proofs.Arena.Faultless
import Keyfile.Proofs.ConditionSides
import Keyfile.Proofs.ReplacedSegment
import Keyfile.Proofs.Trails
import Keyfile.Proofs.SchemaText
import Keyfile.Proofs.ItemOrder
import Keyfile.Proofs.Pointer
import Keyfile.Proofs.ReplacedValue
import Keyfile.Proofs.EmptyValue
import Keyfile.Proofs.NumberClass
import Keyfile.Proofs.RuleFacets
import Keyfile.Proofs.Arena.Preorder
import Keyfile.Proofs.Innermost
import Keyfile.Proofs.EditAlgebra
import Keyfile.Proofs.NameOptions
import Keyfile.Proofs.ScanSteps
import Keyfile.Proofs.LineTable
