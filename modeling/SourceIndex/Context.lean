import SourceIndex.Decimal.Fixed
import SourceIndex.Ranking
import SourceIndex.Symbol

/-!
# Context packages

A context package holds the best results of a search that fit into a budget of tokens. Results are
taken in their order; one that does not fit is left out and smaller ones behind it may still fit.
The package comes with the symbols that its chunks declare and with a text of all chunks.
-/

namespace SourceIndex

/-- A selection of results for a query, with their cost and with what a reader needs to make sense
of it: the symbols that the selected chunks declare and the modules that each file imports. -/
structure Context where
  query : Text
  results : List Hit
  symbols : SymbolTable
  imports : ImportGraph
  totalTokens : Nat
  text : Text

namespace Context

/-- The number of characters that count as one token. -/
def charactersPerToken : Nat := 4

/-- The cost of a text: a token for every four characters, rounded up. -/
def tokenCost (s : Text) : Nat :=
  (s.length + (charactersPerToken - 1)) / charactersPerToken

/-- The cost of a result. -/
def cost (r : Hit) : Nat :=
  tokenCost r.chunk.content

/-- The results that fit into a budget of which `spent` tokens are spent, and what is spent then. -/
def select (budget : Int) : (spent : Nat) → List Hit → List Hit × Nat
  | spent, [] => ([], spent)
  | spent, r :: rest =>
    if budget < spent + cost r then select budget spent rest
    else
      let (results, total) := select budget (spent + cost r) rest
      (r :: results, total)

/-- The line above a chunk. -/
def header (r : Hit) : Text :=
  "// --- ".toList ++ r.chunk.path ++ " (".toList ++ r.chunk.kind.label ++ ": ".toList ++
    r.chunk.name ++ ") [score: ".toList ++ fixedText 2 r.score ++ "] ---".toList

/-- The text of the selected chunks, each under its header. -/
def render (query : Text) (results : List Hit) : Text :=
  Text.unlines <|
    ["// Query: \"".toList ++ query ++ ['"'],
      "// ".toList ++ Text.ofNat results.length ++ " relevant code sections found".toList, []] ++
    results.flatMap fun r => [header r, r.chunk.content, []]

/-- The limits of the searches that a budget asks for: none if there is nothing to spend. -/
def searchLimits (budget : Int) (pool : Int) : List Int :=
  if 0 < budget then [pool] else []

/-- The package for a query. `search` gives the best results up to a limit. -/
def assemble (query : Text) (budget pool : Int) (search : Int → List Hit)
    (symbols : SymbolTable) (imports : ImportGraph) : Context :=
  let (results, total) := select budget 0 ((searchLimits budget pool).flatMap search)
  { query := query
    results := results
    symbols := symbols.restrict (results.map (·.chunk.symbolKey))
    imports := imports
    totalTokens := total
    text := render query results }

end Context

end SourceIndex
