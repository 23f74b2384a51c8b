import SourceIndex.Chunk.Basic
import SourceIndex.OrderedMap

/-!
# Term weights

The term index counts in how many chunks each term occurs. A term weighs more the fewer chunks hold
it: its weight is `log ((N + 1) / (n + 1)) + 1` for `n` of `N` documents, where chunks with one
identifier are one document. A vector has one entry for each term of the vocabulary, in the order in
which the terms were first seen, so all vectors of one index can be compared.
-/

namespace SourceIndex

/-- The terms of a collection of chunks: how many chunks hold each term, in the order in which the
terms were first seen, and the terms of each document, with repetitions. -/
structure TermIndex where
  frequencies : OrderedMap Text Nat := .empty
  documents : OrderedMap Text (List Text) := .empty

namespace TermIndex

/-- Counts a document once for each of its terms. -/
def countTerms (frequencies : OrderedMap Text Nat) (terms : List Text) : OrderedMap Text Nat :=
  terms.eraseDups.foldl (fun m t => m.alter t fun n => n.getD 0 + 1) frequencies

/-- The index with one more chunk. -/
def add (index : TermIndex) (c : Chunk) : TermIndex :=
  let terms := c.terms
  { frequencies := countTerms index.frequencies terms
    documents := index.documents.insert c.id terms }

/-- The index of a list of chunks. -/
def ofChunks (chunks : List Chunk) : TermIndex :=
  chunks.foldl add {}

/-- The index of a list of documents, each an identifier with its terms; nothing is kept of what the
index held before. -/
def rebuild (index : TermIndex) (documents : List (Text × List Text)) : TermIndex :=
  { index with
    frequencies := documents.foldl (fun m document => countTerms m document.2) .empty
    documents := .ofList documents }

/-- The terms in the order in which they were first seen. -/
def vocabulary (index : TermIndex) : List Text :=
  index.frequencies.keys

/-- The terms of a document, none if it is unknown. -/
def termsOf (index : TermIndex) (id : Text) : List Text :=
  (index.documents.get? id).getD []

/-- The weight of a term that `n` of `total` documents hold. -/
def termWeight (total n : Nat) : Float :=
  Float.log ((total + 1).toFloat / (n + 1).toFloat) + 1.0

/-- The terms with their weights, in the order in which they were first seen. -/
def weights (index : TermIndex) : List (Text × Float) :=
  let total := index.documents.size
  index.frequencies.entries.map fun (t, n) => (t, termWeight total n)

/-- The weight of a term, zero if it is unknown. -/
def weight (index : TermIndex) (term : Text) : Float :=
  match index.frequencies.get? term with
  | some n => termWeight index.documents.size n
  | none => 0.0

/-- How often the most frequent term of a list occurs in it; one for an empty list. -/
def peakCount (terms : List Text) : Nat :=
  (terms.eraseDups.map fun t => terms.count t).foldl max 1

/-- The vector of a list of terms: for each weighted term its share of the peak count, weighted. -/
def project (weights : List (Text × Float)) (terms : List Text) : List Float :=
  let peak := (peakCount terms).toFloat
  weights.map fun (t, w) => (terms.count t).toFloat / peak * w

/-- The vector of a list of terms. -/
def vector (index : TermIndex) (terms : List Text) : List Float :=
  project index.weights terms

end TermIndex

/-- A chunk with its vector; one that is not bound to a term index has no entries. -/
structure IndexedChunk extends Chunk where
  vector : List Float := []

/-- The chunks with their vectors. -/
def TermIndex.bind (index : TermIndex) (chunks : List Chunk) : List IndexedChunk :=
  let weights := index.weights
  chunks.map fun c => { toChunk := c, vector := project weights c.terms }

end SourceIndex
