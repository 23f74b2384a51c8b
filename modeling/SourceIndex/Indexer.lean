import SourceIndex.Audit.Arguments
import SourceIndex.Context
import SourceIndex.Issue
import SourceIndex.Repair
import SourceIndex.Settings.Merge
import SourceIndex.Snapshot.Refresh

/-!
# Indexers

An indexer holds settings, chunkers and the snapshot of a project, and answers questions about it.
Every operation gives its answer together with the event that an audit trail records: counts,
lengths and the version of the snapshot, never a text. Only indexing changes the indexer.
-/

namespace SourceIndex

/-- What an operation reports to an audit trail, with the version of the snapshot that it used. -/
structure IndexerEvent where
  operation : Text
  version : Nat
  metadata : List (Text × Json)

/-- An index of a project that can be brought up to date and asked. -/
structure Indexer where
  settings : Settings := {}
  chunkers : Chunkers := settings.chunkers
  snapshot : Snapshot := {}

namespace Indexer

/-- The event of an operation on the snapshot. -/
def event (x : Indexer) (operation : String) (metadata : List (Text × Json)) : IndexerEvent where
  operation := operation.toList
  version := x.snapshot.version
  metadata := metadata

/-- A count in the metadata of an event. -/
def count (name : String) (n : Nat) : Text × Json :=
  (name.toList, .int n)

/-- The metadata of a refresh; only one that was not skipped names the degraded files. -/
def refreshMetadata (r : Refresh) : List (Text × Json) :=
  let s := r.summary
  [count "total_chunks" s.totalChunks, count "total_symbols" s.totalSymbols,
    count "changed_files" s.changedFiles, count "added_files" s.addedFiles,
    count "updated_files" s.updatedFiles, count "removed_files" s.removedFiles,
    ("skipped".toList, .bool s.skipped)] ++
  if s.skipped then [] else [("degraded_files".toList, .arr (r.degraded.map .str))]

/-- Brings the index up to date with a project. -/
def index (x : Indexer) (files : List ProjectEntry) : Indexer × Refresh.Summary × IndexerEvent :=
  let r := x.snapshot.refresh x.chunkers files
  let x := { x with snapshot := r.snapshot }
  (x, r.summary, x.event "index_project" (refreshMetadata r))

/-- The best results for a query, at most `limit` or else as many as the settings say. -/
def search (x : Indexer) (query : Text) (limit : Option Int) : List Hit × IndexerEvent :=
  let limit := limit.getD x.settings.maxResults
  let results := rank x.snapshot.terms x.snapshot.chunks query limit
  (results, x.event "search" <|
    Audit.describe [("query".toList, .str query), ("max_results".toList, .int limit)] ++
      [count "result_count" results.length])

/-- The package for a query within a budget, or else within that of the settings. -/
def context (x : Indexer) (query : Text) (budget : Option Int) :
    Context × IndexerEvent :=
  let budget := budget.getD x.settings.tokenBudget
  let package := Context.assemble query budget x.settings.candidatePool
    (rank x.snapshot.terms x.snapshot.chunks query) x.snapshot.symbols x.snapshot.imports
  (package, x.event "assemble_context" <|
    Audit.describe [("query".toList, .str query), ("token_budget".toList, .int budget)] ++
      [count "selected_count" package.results.length, count "total_tokens" package.totalTokens])

/-- The lines that mention a name. -/
def references (x : Indexer) (name : Text) : List Reference × IndexerEvent :=
  let references := x.snapshot.references name
  (references, x.event "find_references" <|
    Audit.describe [("name".toList, .str name)] ++ [count "reference_count" references.length])

/-- The issues of all chunks. -/
def issues (x : Indexer) : List Issue × IndexerEvent :=
  let issues := Issue.inChunks (x.snapshot.chunks.map (·.toChunk))
  (issues, x.event "detect_issues" [count "issue_count" issues.length])

/-- The repaired text of a file, which need not be part of the project. -/
def repaired (x : Indexer) (path content : Text) : Repair × IndexerEvent :=
  let r := repair content
  (r, x.event "auto_fix" <|
    Audit.describe [("path".toList, .str path), ("content".toList, .str content)] ++
      [count "fix_count" r.kinds.length])

end Indexer

end SourceIndex
