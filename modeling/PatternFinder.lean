import PatternFinder.Analysis.Analyzer
import PatternFinder.Analysis.Cancellation
import PatternFinder.Analysis.Host
import PatternFinder.Pipeline
import PatternFinder.Analysis.Registry
import PatternFinder.Analysis.Report
import PatternFinder.Analysis.Work
import PatternFinder.Compilation.Index
import PatternFinder.Compilation.Semantics
import PatternFinder.Compilation.View
import PatternFinder.Config.File
import PatternFinder.Config.Layers
import PatternFinder.Config.Load
import PatternFinder.Config.Settings
import PatternFinder.Config.Validate
import PatternFinder.Encoding.Body
import PatternFinder.Encoding.Declaration
import PatternFinder.Encoding.Finding
import PatternFinder.Encoding.Report
import PatternFinder.Encoding.Settings
import PatternFinder.Encoding.TypeRef
import PatternFinder.Error
import PatternFinder.Finding.Basic
import PatternFinder.Finding.Rule
import PatternFinder.Finding.Severity
import PatternFinder.Hash.Xxh3
import PatternFinder.Json.Basic
import PatternFinder.Json.Printer
import PatternFinder.Lowering.Body
import PatternFinder.Lowering.Member
import PatternFinder.Lowering.Tree
import PatternFinder.Lowering.TypeRef
import PatternFinder.Model.Body
import PatternFinder.Model.Declaration
import PatternFinder.Model.Modifier
import PatternFinder.Model.TypeRef
import PatternFinder.Pattern.Basic
import PatternFinder.Pattern.Check
import PatternFinder.Pattern.Decorator
import PatternFinder.Pattern.FactoryMethod
import PatternFinder.Pattern.Flyweight
import PatternFinder.Pattern.Outcome
import PatternFinder.Pattern.Singleton
import PatternFinder.Report.Console
import PatternFinder.Report.Format
import PatternFinder.Report.Sarif
import PatternFinder.Scan.Discovery
import PatternFinder.Scan.Disk
import PatternFinder.Scan.FileLayout
import PatternFinder.Scan.FileTree
import PatternFinder.Scan.Glob
import PatternFinder.Scan.GlobNesting
import PatternFinder.Scan.GlobReader
import PatternFinder.Scan.IgnoreFile
import PatternFinder.Scan.IgnoreRule
import PatternFinder.Scan.Walk
import PatternFinder.Source.Faults
import PatternFinder.Source.Location
import PatternFinder.Source.Node
import PatternFinder.Source.Text
import PatternFinder.Text.Basic
import PatternFinder.Text.Number
import PatternFinder.Toml.Datetime
import PatternFinder.Toml.Draft
import PatternFinder.Toml.Printer
import PatternFinder.Toml.Quoted
import PatternFinder.Toml.Reader
import PatternFinder.Toml.Scalar
import PatternFinder.Toml.Value
import PatternFinder.Proofs.FindingOrder
import PatternFinder.Proofs.Judgement
import PatternFinder.Proofs.Selection
import PatternFinder.Proofs.Reporting
import PatternFinder.Proofs.Schedule
import PatternFinder.Proofs.Reading
import PatternFinder.Proofs.NestedFacts
import PatternFinder.Proofs.Occurrence
import PatternFinder.Proofs.MemberBody
import PatternFinder.Proofs.FactOrigin
import PatternFinder.Proofs.Truncation
import PatternFinder.Proofs.WalkDepth
import PatternFinder.Proofs.CommentRemoval
import PatternFinder.Proofs.CommentFree
import PatternFinder.Proofs.TypePlaces
import PatternFinder.Proofs.DeclaredTypes
import PatternFinder.Proofs.Enclosure
import PatternFinder.Proofs.IndexScan
import PatternFinder.Proofs.Supertypes
import PatternFinder.Proofs.Separation
import PatternFinder.Proofs.Reordering
import PatternFinder.Proofs.Support
import PatternFinder.Proofs.Interruption
import PatternFinder.Proofs.ValidSettings
import PatternFinder.Proofs.KeyedEntries
import PatternFinder.Proofs.SeverityOverrides
import PatternFinder.Proofs.LayeredSettings
import PatternFinder.Proofs.FileAccounting
import PatternFinder.Proofs.InterfaceClosure
import PatternFinder.Proofs.JsonRoundTrip
import PatternFinder.Proofs.SourceLocations
import PatternFinder.Proofs.QuotedStrings
import PatternFinder.Proofs.TomlValues
import PatternFinder.Proofs.TomlDocument
import PatternFinder.Proofs.SettingsRoundTrip
import PatternFinder.Proofs.ElementSearch
import PatternFinder.Proofs.CollectionReading
import PatternFinder.Proofs.WrappedComponent
import PatternFinder.Proofs.VisitedMembers
import PatternFinder.Proofs.CrossFileSearch
import PatternFinder.Proofs.PooledMethod
import PatternFinder.Proofs.GrowingCompilation
import PatternFinder.Proofs.RepeatedFindings
import PatternFinder.Proofs.FingerprintEncoding
import PatternFinder.Proofs.WrappingChain
import PatternFinder.Proofs.TypeNesting
import PatternFinder.Proofs.DispatcherHistory
import PatternFinder.Proofs.FaultSearch
import PatternFinder.Proofs.BodyPlaces
