import TextProviders.Calendar
import TextProviders.CommandLine.Commands
import TextProviders.CommandLine.Help
import TextProviders.CommandLine.Options
import TextProviders.Declaration
import TextProviders.Discovery
import TextProviders.Document.Cursor
import TextProviders.Document.Fault
import TextProviders.Document.Load
import TextProviders.Document.Node
import TextProviders.Document.Property
import TextProviders.Document.Scalar
import TextProviders.Document.SetOrder
import TextProviders.Document.Source
import TextProviders.Document.Tag
import TextProviders.Document.Token
import TextProviders.Document.Value
import TextProviders.FailureKind
import TextProviders.FileSystem
import TextProviders.Generation.Action
import TextProviders.Generation.Failure
import TextProviders.Generation.Report
import TextProviders.Generation.Resolver
import TextProviders.Generation.Run
import TextProviders.Generation.Workers
import TextProviders.Generation.World
import TextProviders.Journal
import TextProviders.Layout
import TextProviders.Literal
import TextProviders.Main
import TextProviders.Manifest
import TextProviders.Number.Double
import TextProviders.Number.Numeral
import TextProviders.Number.Shortest
import TextProviders.Path
import TextProviders.Proofs.FileSystem.Apart
import TextProviders.Proofs.FileSystem.Keeping
import TextProviders.Proofs.FileSystem.Looking
import TextProviders.Proofs.FileSystem.Making
import TextProviders.Proofs.FileSystem.Trees
import TextProviders.Proofs.Generation.Accounts
import TextProviders.Proofs.Generation.Again
import TextProviders.Proofs.Generation.Batch
import TextProviders.Proofs.Generation.Conclusion
import TextProviders.Proofs.Generation.Course
import TextProviders.Proofs.Generation.Embedded
import TextProviders.Proofs.Generation.Fate
import TextProviders.Proofs.Generation.Faults
import TextProviders.Proofs.Generation.Growth
import TextProviders.Proofs.Generation.Independence
import TextProviders.Proofs.Generation.Interference
import TextProviders.Proofs.Generation.Interleaving
import TextProviders.Proofs.Generation.Lost
import TextProviders.Proofs.Generation.Ownership
import TextProviders.Proofs.Generation.Records
import TextProviders.Proofs.Generation.Recovery
import TextProviders.Proofs.Generation.Resource
import TextProviders.Proofs.Generation.Rivals
import TextProviders.Proofs.Generation.Session
import TextProviders.Proofs.Generation.Settlement
import TextProviders.Proofs.Generation.SingleWriter
import TextProviders.Proofs.Generation.Standing
import TextProviders.Proofs.Generation.Steps
import TextProviders.Proofs.Generation.Tenure
import TextProviders.Proofs.Generation.WriteSource
import TextProviders.Proofs.Layout.Places
import TextProviders.Proofs.Literal.InSource
import TextProviders.Proofs.Literal.Reading
import TextProviders.Proofs.Literal.RoundTrip
import TextProviders.Proofs.Source.Barrier
import TextProviders.Proofs.Source.Header
import TextProviders.Proofs.Source.Lexing
import TextProviders.Proofs.Source.Marked
import TextProviders.Proofs.Source.Masked
import TextProviders.Proofs.Source.Reports
import TextProviders.Proofs.Source.Visibility
import TextProviders.Proofs.Template.Pieces
import TextProviders.Proofs.Template.Providers
import TextProviders.Proofs.Text.Split
import TextProviders.Proofs.Text.Utf8
import TextProviders.Source.Lexeme
import TextProviders.Source.Mark
import TextProviders.Source.Member
import TextProviders.Source.Scan
import TextProviders.Target
import TextProviders.Template.Store
import TextProviders.Template.Substitute
import TextProviders.Text.Base64
import TextProviders.Text.Blank
import TextProviders.Text.Case
import TextProviders.Text.CaseClass
import TextProviders.Text.Code
import TextProviders.Text.Digit
import TextProviders.Text.Lines
import TextProviders.Text.Printable
import TextProviders.Text.Quoted
import TextProviders.Text.Span
import TextProviders.Text.Split
import TextProviders.Text.Stream
import TextProviders.Text.Utf8
import TextProviders.Text.Word
import TextProviders.Proofs.Source.Composition
import TextProviders.Proofs.Source.Agreement
import TextProviders.Proofs.Source.Generated
import TextProviders.Proofs.Literal.Verbatim
import TextProviders.Proofs.Generation.Requested
import TextProviders.Proofs.Layout.Confined
import TextProviders.Proofs.Layout.Beside
import TextProviders.Proofs.FileSystem.Alike
import TextProviders.Proofs.Generation.Planned
import TextProviders.Proofs.Generation.Treatment
import TextProviders.Proofs.Document.Steps
import TextProviders.Proofs.Document.Texts
import TextProviders.Proofs.Document.Loading
import TextProviders.Proofs.Document.Scanning
import TextProviders.Proofs.Document.Composing
import TextProviders.Proofs.CommandLine.BadManifest
import TextProviders.Proofs.Template.Walk
import TextProviders.Proofs.Manifest.Entry
import TextProviders.Proofs.Generation.FirstHit
import TextProviders.Proofs.Generation.Ledger
import TextProviders.Proofs.Generation.MissingTemplate
import TextProviders.Proofs.Source.Members
import TextProviders.Proofs.Source.Arguments
import TextProviders.Proofs.Discovery.Sources
import TextProviders.Proofs.Discovery.FirstWins
import TextProviders.Proofs.Discovery.Union
import TextProviders.Proofs.Text.Collapsed
import TextProviders.Proofs.Manifest.Listing
import TextProviders.Proofs.Source.Alignment
import TextProviders.Proofs.Generation.Reporting
import TextProviders.Proofs.Generation.Verdicts
import TextProviders.Proofs.Declaration.Extension
