import CallAtlas.Command.Help
import CallAtlas.Command.Invocation
import CallAtlas.Command.Options
import CallAtlas.Command.Run
import CallAtlas.Config.Basic
import CallAtlas.Config.File
import CallAtlas.Config.Json
import CallAtlas.Digest.Content
import CallAtlas.Digest.Sha256
import CallAtlas.Discovery.Level
import CallAtlas.Discovery.Walk
import CallAtlas.Doc.Comment
import CallAtlas.Failure
import CallAtlas.Files.Changes
import CallAtlas.Files.Tree
import CallAtlas.Framework.Events
import CallAtlas.Framework.Hint
import CallAtlas.Framework.Middleware
import CallAtlas.Framework.Registry
import CallAtlas.Framework.Routes
import CallAtlas.Framework.Scan
import CallAtlas.Framework.SourcePath
import CallAtlas.Framework.Tasks
import CallAtlas.Graph.Basic
import CallAtlas.Graph.Build
import CallAtlas.Graph.EntryPoint
import CallAtlas.Graph.Facts
import CallAtlas.Graph.Json
import CallAtlas.Graph.Search
import CallAtlas.Graph.Store
import CallAtlas.Ignore.Glob
import CallAtlas.Ignore.Rules
import CallAtlas.Json.Basic
import CallAtlas.Json.Commented
import CallAtlas.Json.Parser
import CallAtlas.Json.Printer
import CallAtlas.Log.Trace
import CallAtlas.Main
import CallAtlas.Path.Basic
import CallAtlas.Path.Normal
import CallAtlas.Resolve.Aliases
import CallAtlas.Resolve.Specifier
import CallAtlas.Staleness.Check
import CallAtlas.Syntax.Cursor
import CallAtlas.Syntax.Dialect
import CallAtlas.Syntax.Forest
import CallAtlas.Syntax.Grammar.Class
import CallAtlas.Syntax.Grammar.Declaration
import CallAtlas.Syntax.Grammar.Expression
import CallAtlas.Syntax.Grammar.Function
import CallAtlas.Syntax.Grammar.Literal
import CallAtlas.Syntax.Grammar.Markup
import CallAtlas.Syntax.Grammar.Module
import CallAtlas.Syntax.Grammar.Phrase
import CallAtlas.Syntax.Grammar.Statement
import CallAtlas.Syntax.Grammar.Type
import CallAtlas.Syntax.Kind
import CallAtlas.Syntax.Program
import CallAtlas.Syntax.Semicolon
import CallAtlas.Syntax.Token
import CallAtlas.Syntax.Tree
import CallAtlas.Text.Blank
import CallAtlas.Text.Capital
import CallAtlas.Text.Padded
import CallAtlas.Text.Quoted
import CallAtlas.Text.Uppercase
import CallAtlas.Text.Word
import CallAtlas.Time.Epoch
import CallAtlas.Time.Instant
import CallAtlas.Toml.Document
import CallAtlas.Toml.Printer
import CallAtlas.Toml.Scalar
import CallAtlas.Toml.Table
import CallAtlas.Unit.Basic
import CallAtlas.Unit.Calls
import CallAtlas.Unit.Collect
import CallAtlas.Unit.Extraction
import CallAtlas.Unit.Modules
import CallAtlas.Proofs.Ancestors
import CallAtlas.Proofs.Declarations
import CallAtlas.Proofs.Loading
import CallAtlas.Proofs.Nodes
import CallAtlas.Proofs.Targets
import CallAtlas.Proofs.ByteOrder
import CallAtlas.Proofs.Connections
import CallAtlas.Proofs.ReExportChains
import CallAtlas.Proofs.WellFormedGraph
import CallAtlas.Proofs.EdgesPerSource
import CallAtlas.Proofs.Digits
import CallAtlas.Proofs.JsonRoundTrip
import CallAtlas.Proofs.InstantRoundTrip
import CallAtlas.Proofs.SnapshotRoundTrip
import CallAtlas.Proofs.BuildThenCheck
import CallAtlas.Proofs.RememberedAliases
import CallAtlas.Proofs.EntryPointEdges
import CallAtlas.Proofs.ExplicitReExports
import CallAtlas.Proofs.ExportedUnits
import CallAtlas.Proofs.FileOrder
import CallAtlas.Proofs.StatusReport
import CallAtlas.Proofs.DeclaredNames
import CallAtlas.Proofs.CallTiers
import CallAtlas.Proofs.ForeignPaths
import CallAtlas.Proofs.EditedBodies
import CallAtlas.Proofs.LexemeSpacing
import CallAtlas.Proofs.DigestedLexemes
import CallAtlas.Proofs.RelativePaths
import CallAtlas.Proofs.GuardedCalls
import CallAtlas.Proofs.JsonSpelling
import CallAtlas.Proofs.CommentStripping
import CallAtlas.Proofs.AliasMappings
import CallAtlas.Proofs.TriedPaths
import CallAtlas.Proofs.ModuleResolution
import CallAtlas.Proofs.ComposedPaths
import CallAtlas.Proofs.NormalTexts
import CallAtlas.Proofs.EnclosedBodies
import CallAtlas.Proofs.RedeclaredNames
import CallAtlas.Proofs.TrailAddresses
import CallAtlas.Proofs.DeclaredPlaces
import CallAtlas.Proofs.ReportedDeclarations
import CallAtlas.Proofs.UnitOrder
import CallAtlas.Proofs.MethodExports
import CallAtlas.Proofs.FailingFiles
import CallAtlas.Proofs.RouteFiles
import CallAtlas.Proofs.RequestHandlers
import CallAtlas.Proofs.ScannedPlaces
import CallAtlas.Proofs.RequestOptions
import CallAtlas.Proofs.RequestMethods
import CallAtlas.Proofs.BalancedBraces
import CallAtlas.Proofs.CommentLines
import CallAtlas.Proofs.RequestPaths
import CallAtlas.Proofs.RouteComponents
import CallAtlas.Proofs.RouteMatching
import CallAtlas.Proofs.WrittenTags
import CallAtlas.Proofs.WrittenComments
import CallAtlas.Proofs.FirstEdges
