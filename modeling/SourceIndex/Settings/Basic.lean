import SourceIndex.Chunker.QueryFile
import SourceIndex.Chunker.Script
import SourceIndex.Chunker.Stylesheet
import SourceIndex.Chunker.WholeFile
import SourceIndex.Json.Basic
import SourceIndex.Path.Posix

/-!
# Settings

The limits of searches and packages, the extensions that each chunker takes, and whether and where
an audit trail is kept.
-/

namespace SourceIndex

/-- The settings of an indexer. -/
structure Settings where
  maxResults : Nat := 10
  candidatePool : Nat := 15
  tokenBudget : Nat := 8000
  scriptExtensions : List Text := Script.defaultExtensions
  stylesheetExtensions : List Text := Stylesheet.defaultExtensions
  queryExtensions : List Text := QueryFile.defaultExtensions
  structuredExtensions : List Text := Structured.defaultExtensions
  auditEnabled : Bool := false
  auditPath : Path.Normal := .of ".codebase_indexer/audit.jsonl".toList
  deriving DecidableEq, Repr

namespace Settings

/-- The largest number of results that a search may be set to give. -/
def maxResultsCap : Nat := 200

/-- The largest number of results that a package may be set to choose from. -/
def candidatePoolCap : Nat := 200

/-- The largest number of tokens that a package may be set to cost. -/
def tokenBudgetCap : Nat := 1000000

/-- The settings as a JSON value. -/
def toJson (s : Settings) : Json :=
  let strings (texts : List Text) : Json := .arr (texts.map .str)
  .obj
    [("search".toList, .obj
        [("max_results".toList, .int s.maxResults),
          ("candidate_pool".toList, .int s.candidatePool)]),
      ("context".toList, .obj [("token_budget".toList, .int s.tokenBudget)]),
      ("chunking".toList, .obj
        [("script_extensions".toList, strings s.scriptExtensions),
          ("stylesheet_extensions".toList, strings s.stylesheetExtensions),
          ("query_extensions".toList, strings s.queryExtensions),
          ("structured_extensions".toList, strings s.structuredExtensions)]),
      ("audit".toList, .obj
        [("enabled".toList, .bool s.auditEnabled), ("path".toList, .str s.auditPath.text)])]

/-- The chunkers that settings ask for; whole files are the fallback. -/
def chunkers (s : Settings) : Chunkers where
  ordered :=
    [Script.chunker s.scriptExtensions, Stylesheet.chunker s.stylesheetExtensions,
      QueryFile.chunker s.queryExtensions, Structured.chunker s.structuredExtensions]
  fallback := some WholeFile.chunker

end Settings

end SourceIndex
