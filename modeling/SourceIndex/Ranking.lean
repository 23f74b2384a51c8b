import SourceIndex.Term.Index
import SourceIndex.Term.Similarity

/-!
# Ranking

A search scores every chunk and keeps those above the noise floor. The score adds up: half a point
if the name of the chunk and the query contain one another, then shares for the similarity of the
vectors and for the terms in common, and a bonus if the query asks for the kind of the chunk. The
best scores come first, and equal scores keep the order of the chunks.
-/

namespace SourceIndex

/-- Why a chunk was found: its name and the query contain one another, its text resembles the query,
or the query asks for its kind. -/
inductive MatchKind where
  | exact
  | semantic
  | structural
  deriving DecidableEq, Repr

/-- The label of a kind of match. -/
def MatchKind.label : MatchKind → Text
  | exact => "exact".toList
  | semantic => "semantic".toList
  | structural => "structural".toList

/-- A chunk that was found. -/
structure Hit where
  chunk : Chunk
  score : Float
  matchKind : MatchKind

namespace Ranking

/-- The points for a name that contains the query or is contained in it. -/
def nameWeight : Float := 0.5

/-- The points for vectors of the same direction. -/
def vectorWeight : Float := 0.3

/-- The points for a text that holds all terms of the query. -/
def overlapWeight : Float := 0.2

/-- The points for a chunk of the kind that the query asks for. -/
def kindBonus : Float := 0.1

/-- The score that a result has to exceed. -/
def noiseFloor : Float := 0.05

/-- The longest parts of a text that consist of word characters. -/
def wordRuns (s : Text) : List Text :=
  (s.splitOnP fun c => !isWordChar c).filter fun w => !w.isEmpty

/-- The words by which a query asks for a kind of chunk. -/
def kindWords : Chunk.Kind → List Text
  | .component => ["ui", "page", "pages", "component", "components"].map String.toList
  | .hook => ["hook", "hooks"].map String.toList
  | .query => ["database", "databases", "table", "tables", "schema", "schemas"].map String.toList
  | _ => []

/-- A query made ready for scoring: its text and its words in lower case, its search terms and its
vector. -/
structure Query where
  lowered : Text
  words : List Text
  terms : List Text
  vector : List Float

/-- The query with a text, for chunks bound to an index. -/
def Query.ofText (index : TermIndex) (text : Text) : Query :=
  let lowered := text.lower
  let terms := text.terms
  { lowered := lowered, words := wordRuns lowered, terms := terms, vector := index.vector terms }

/-- Whether a query asks for a kind of chunk. -/
def Query.wants (q : Query) (kind : Chunk.Kind) : Bool :=
  (kindWords kind).any q.words.contains

/-- Whether a query and a name contain one another. -/
def Query.names (q : Query) (name : Text) : Bool :=
  let name := name.lower
  name.contains q.lowered || q.lowered.contains name

/-- The share of the terms of a query that are among the given ones. -/
def Query.overlap (q : Query) (terms : List Text) : Float :=
  (q.terms.countP terms.contains).toFloat / q.terms.length.toFloat

/-- The result that a chunk would be, whatever its score. -/
def scored (q : Query) (c : IndexedChunk) : Hit :=
  let isNamed := q.names c.name
  let isWanted := q.wants c.kind
  let score := 0.0
  let score := if isNamed then score + nameWeight else score
  let score :=
    if c.vector.isEmpty || q.vector.isEmpty then score
    else score + cosine q.vector c.vector * vectorWeight
  let score :=
    if q.terms.isEmpty then score else score + q.overlap c.terms * overlapWeight
  let score := if isWanted then score + kindBonus else score
  { chunk := c.toChunk
    score := score
    matchKind := if isWanted then .structural else if isNamed then .exact else .semantic }

/-- The results above the noise floor, in the order of the chunks. -/
def candidates (q : Query) (chunks : List IndexedChunk) : List Hit :=
  (chunks.map (scored q)).filter fun r => r.score > noiseFloor

/-- Whether a result may stand before another one in the order of scores. -/
def scoreOrder (a b : Hit) : Bool :=
  decide (b.score ≤ a.score)

end Ranking

/-- The best results for a query, at most `limit` of them. -/
def rank (index : TermIndex) (chunks : List IndexedChunk) (query : Text) (limit : Int) :
    List Hit :=
  if limit < 1 ∨ query.isBlank then []
  else
    ((Ranking.candidates (.ofText index query) chunks).mergeSort Ranking.scoreOrder).take
      limit.toNat

end SourceIndex
