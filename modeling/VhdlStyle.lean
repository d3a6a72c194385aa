import VhdlStyle.Cache
import VhdlStyle.Casing
import VhdlStyle.CommandLine.Actions
import VhdlStyle.CommandLine.Command
import VhdlStyle.CommandLine.Failure
import VhdlStyle.CommandLine.Flag
import VhdlStyle.CommandLine.FormatFlags
import VhdlStyle.CommandLine.Help
import VhdlStyle.CommandLine.Program
import VhdlStyle.CommandLine.Report
import VhdlStyle.CommandLine.Session
import VhdlStyle.Design.Comment
import VhdlStyle.Design.Concurrent.Basic
import VhdlStyle.Design.Concurrent.Parser
import VhdlStyle.Design.Concurrent.Printer
import VhdlStyle.Design.Decl.Basic
import VhdlStyle.Design.Decl.Parser
import VhdlStyle.Design.Decl.Printer
import VhdlStyle.Design.Expr.Basic
import VhdlStyle.Design.Expr.Parser
import VhdlStyle.Design.Expr.Printer
import VhdlStyle.Design.Interface.Basic
import VhdlStyle.Design.Interface.Parser
import VhdlStyle.Design.Interface.Printer
import VhdlStyle.Design.Outline
import VhdlStyle.Design.Parse
import VhdlStyle.Design.Record
import VhdlStyle.Design.Sequential.Basic
import VhdlStyle.Design.Sequential.Parser
import VhdlStyle.Design.Sequential.Printer
import VhdlStyle.Design.Unit.Basic
import VhdlStyle.Design.Unit.Parser
import VhdlStyle.Design.Unit.Printer
import VhdlStyle.Diagnostic.Bag
import VhdlStyle.Diagnostic.Code
import VhdlStyle.Digest.Key
import VhdlStyle.Digest.Sha256
import VhdlStyle.Disk.Basic
import VhdlStyle.Disk.Sources
import VhdlStyle.Disk.Tree
import VhdlStyle.Doc.Basic
import VhdlStyle.Doc.Block
import VhdlStyle.Doc.Columns
import VhdlStyle.Doc.Layout
import VhdlStyle.Doc.Width
import VhdlStyle.Format
import VhdlStyle.Main
import VhdlStyle.MessagePack
import VhdlStyle.Number.Literal
import VhdlStyle.Patch.Script
import VhdlStyle.Patch.Shortest
import VhdlStyle.Patch.Unified
import VhdlStyle.Progress
import VhdlStyle.Proofs.Comments.Actions
import VhdlStyle.Proofs.Comments.Attachment
import VhdlStyle.Proofs.Comments.Collected
import VhdlStyle.Proofs.Comments.Conservation
import VhdlStyle.Proofs.Diagnostics.Rejection
import VhdlStyle.Proofs.Diagnostics.Truncation
import VhdlStyle.Proofs.Layout.WhiteSpace
import VhdlStyle.Proofs.Lexing.Derivation
import VhdlStyle.Proofs.Parsing.Actions
import VhdlStyle.Proofs.Parsing.Built
import VhdlStyle.Proofs.Parsing.Progress
import VhdlStyle.Release
import VhdlStyle.Run.Batch
import VhdlStyle.Run.Job
import VhdlStyle.Run.Result
import VhdlStyle.Semver.Constraint
import VhdlStyle.Semver.Version
import VhdlStyle.Settings.Basic
import VhdlStyle.Settings.Decode
import VhdlStyle.Settings.Encode
import VhdlStyle.Settings.Load
import VhdlStyle.Settings.Validate
import VhdlStyle.Source.Cursor
import VhdlStyle.Source.File
import VhdlStyle.Source.Path
import VhdlStyle.Source.Span
import VhdlStyle.Text.Bytes
import VhdlStyle.Text.CaseMap
import VhdlStyle.Text.CaseTables
import VhdlStyle.Text.CellTables
import VhdlStyle.Text.Cells
import VhdlStyle.Text.JsonTree
import VhdlStyle.Text.Printable
import VhdlStyle.Text.Quoted
import VhdlStyle.Text.Utf8
import VhdlStyle.Time
import VhdlStyle.Timing
import VhdlStyle.Token.Basic
import VhdlStyle.Token.Invariant
import VhdlStyle.Token.Kind
import VhdlStyle.Token.Lexeme
import VhdlStyle.Token.Lexer
import VhdlStyle.Token.Listing
import VhdlStyle.Toml.Basic
import VhdlStyle.Toml.Quoting
import VhdlStyle.Toml.Reader
import VhdlStyle.Toml.Scalar
import VhdlStyle.Trace.Event
import VhdlStyle.Trace.Level
import VhdlStyle.Trace.Ring
import VhdlStyle.Trace.Tracer
import VhdlStyle.Proofs.Lexing.Lossless
import VhdlStyle.Proofs.Parsing.Bounds
import VhdlStyle.Proofs.Parsing.ExprTermination
import VhdlStyle.Proofs.Parsing.Termination
import VhdlStyle.Proofs.Parsing.Visits
import VhdlStyle.Proofs.Printing.Flow
import VhdlStyle.Proofs.Printing.Rows
import VhdlStyle.Proofs.Printing.Printable
import VhdlStyle.Proofs.Parsing.Yields
import VhdlStyle.Proofs.Parsing.YieldsTrees
import VhdlStyle.Proofs.Printing.Code
import VhdlStyle.Proofs.Printing.Declarations
import VhdlStyle.Proofs.Comments.Scanned
import VhdlStyle.Proofs.Comments.Written
import VhdlStyle.Proofs.Patch.Applied
import VhdlStyle.Proofs.Patch.Passes
import VhdlStyle.Proofs.Tokens.Casing
import VhdlStyle.Proofs.Spacing.Formatting
import VhdlStyle.Proofs.Cache.Hits
import VhdlStyle.Proofs.Layout.SideBySide
import VhdlStyle.Proofs.LineEnds.Exchange
import VhdlStyle.Proofs.LineEnds.Returns
import VhdlStyle.Proofs.LineEnds.Tidy
import VhdlStyle.Proofs.LineEnds.Printing
import VhdlStyle.Proofs.Tokens.Edges
import VhdlStyle.Proofs.Comments.Origin
import VhdlStyle.Proofs.Disk.Overwriting
import VhdlStyle.Proofs.Run.Course
import VhdlStyle.Proofs.Run.Pool
import VhdlStyle.Proofs.Run.Scheduling
import VhdlStyle.Proofs.Run.Stability
import VhdlStyle.Proofs.Diagnostics.Spans
import VhdlStyle.Proofs.Layout.Fitting
import VhdlStyle.Proofs.Layout.Indentation
import VhdlStyle.Proofs.Layout.OneLine
import VhdlStyle.Proofs.Layout.Sheets
import VhdlStyle.Proofs.Layout.UnusedBreaks
import VhdlStyle.Proofs.Layout.Aligned
import VhdlStyle.Proofs.Printing.Placed
import VhdlStyle.Proofs.Printing.Constructs
import VhdlStyle.Proofs.Printing.Kept
import VhdlStyle.Proofs.Printing.Grouped
import VhdlStyle.Proofs.Printing.OneLine
import VhdlStyle.Proofs.Tokens.Spelling
import VhdlStyle.Proofs.Parsing.Reads
import VhdlStyle.Proofs.Parsing.ExprWords
import VhdlStyle.Proofs.Parsing.ExprReads
import VhdlStyle.Proofs.Parsing.CompleteFiles
import VhdlStyle.Proofs.Design.Parts
import VhdlStyle.Proofs.Design.Constants
import VhdlStyle.Proofs.Parsing.RawDeclarations
import VhdlStyle.Proofs.Printing.BlankLines
import VhdlStyle.Proofs.Source.Loading
import VhdlStyle.Proofs.Source.Positions
import VhdlStyle.Proofs.Disk.Paths
import VhdlStyle.Proofs.Text.LowerCase
import VhdlStyle.Proofs.Disk.Search
import VhdlStyle.Proofs.Text.Numbers
import VhdlStyle.Proofs.Digest.Keys
import VhdlStyle.Proofs.Diagnostics.Deduplication
import VhdlStyle.Proofs.Trace.LatestEvents
import VhdlStyle.Proofs.Source.Cursors
import VhdlStyle.Proofs.Progress.Following
