import SourceIndex.Audit.Arguments
import SourceIndex.Audit.Trail
import SourceIndex.Benchmark.Arguments
import SourceIndex.Benchmark.Fixture
import SourceIndex.Benchmark.Scenario
import SourceIndex.Benchmark.Summary
import SourceIndex.Benchmark.Workload
import SourceIndex.Chunk.Basic
import SourceIndex.Chunk.Contract
import SourceIndex.Chunker.Basic
import SourceIndex.Chunker.QueryFile
import SourceIndex.Chunker.Script
import SourceIndex.Chunker.Stylesheet
import SourceIndex.Chunker.WholeFile
import SourceIndex.Code.Block
import SourceIndex.Code.Features
import SourceIndex.Code.Literal
import SourceIndex.Context
import SourceIndex.Decimal.Fixed
import SourceIndex.Fingerprint
import SourceIndex.Indexer
import SourceIndex.Issue
import SourceIndex.Json.Basic
import SourceIndex.Json.Reader
import SourceIndex.Json.Writer
import SourceIndex.Main
import SourceIndex.OrderedMap
import SourceIndex.Path.Name
import SourceIndex.Path.Posix
import SourceIndex.Project
import SourceIndex.Proofs.Acceptance
import SourceIndex.Proofs.Agreement
import SourceIndex.Proofs.Block
import SourceIndex.Proofs.Chunkers
import SourceIndex.Proofs.Contract
import SourceIndex.Proofs.Delta
import SourceIndex.Proofs.FoldTree
import SourceIndex.Proofs.Incremental
import SourceIndex.Proofs.MissedChange
import SourceIndex.Proofs.OrderedMap
import SourceIndex.Proofs.Pattern
import SourceIndex.Proofs.Project
import SourceIndex.Proofs.QueryFile
import SourceIndex.Proofs.Run
import SourceIndex.Proofs.Script
import SourceIndex.Proofs.Text
import SourceIndex.Ranking
import SourceIndex.Repair
import SourceIndex.Settings.Basic
import SourceIndex.Settings.Document
import SourceIndex.Settings.Load
import SourceIndex.Settings.Merge
import SourceIndex.Snapshot.Basic
import SourceIndex.Snapshot.Overview
import SourceIndex.Snapshot.Refresh
import SourceIndex.Symbol
import SourceIndex.Term.Basic
import SourceIndex.Term.Index
import SourceIndex.Term.Similarity
import SourceIndex.Text.Basic
import SourceIndex.Text.Blank
import SourceIndex.Text.Case
import SourceIndex.Text.Digit
import SourceIndex.Text.Pattern
import SourceIndex.Text.Quoted
import SourceIndex.Text.Range
import SourceIndex.Text.Word
import SourceIndex.Toml.Reader
import SourceIndex.Toml.Scalar
import SourceIndex.Proofs.Accounts
import SourceIndex.Proofs.Isolation
import SourceIndex.Proofs.Infix
import SourceIndex.Proofs.Location
import SourceIndex.Proofs.Findings
import SourceIndex.Proofs.LineNumbers
import SourceIndex.Proofs.JsonString
import SourceIndex.Proofs.JsonValue
import SourceIndex.Proofs.JsonRoundTrip
import SourceIndex.Proofs.AuditTrail
import SourceIndex.Proofs.Symbol
import SourceIndex.Proofs.Context
import SourceIndex.Proofs.TermIndex
import SourceIndex.Proofs.Identifiers
import SourceIndex.Proofs.SupplyOrder
import SourceIndex.Proofs.Case
import SourceIndex.Proofs.Settings
import SourceIndex.Proofs.Fingerprint
import SourceIndex.Proofs.FloatOrder
import SourceIndex.Proofs.FoldLevels
import SourceIndex.Proofs.Ranking
import SourceIndex.Proofs.Statements
import SourceIndex.Proofs.BlockEnd
import SourceIndex.Proofs.Coverage
import SourceIndex.Proofs.Literal
import SourceIndex.Proofs.Layout
import SourceIndex.Proofs.SelfContained
import SourceIndex.Proofs.ImportRun
import SourceIndex.Proofs.Reading
import SourceIndex.Proofs.BoundNames
import SourceIndex.Proofs.ImportGraph
import SourceIndex.Proofs.TermWeights
import SourceIndex.Proofs.UnusedImports
import SourceIndex.Proofs.Repair
import SourceIndex.Proofs.RepairAgain
import SourceIndex.Proofs.Terms
import SourceIndex.Proofs.WordCase
import SourceIndex.Proofs.TermsAgain
import SourceIndex.Proofs.Disclosure
import SourceIndex.Proofs.PublicSettings
import SourceIndex.Proofs.StableSort
import SourceIndex.Proofs.RepeatedPaths
import SourceIndex.Proofs.Patch
import SourceIndex.Proofs.Overview
import SourceIndex.Proofs.Numbered
import SourceIndex.Proofs.GeneratedFiles
import SourceIndex.Proofs.GeneratedProject
