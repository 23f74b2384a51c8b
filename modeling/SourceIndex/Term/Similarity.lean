/-!
# Similarity of vectors

The cosine of the angle between two vectors. Vectors of different lengths, empty vectors and vectors
without a direction are not similar to anything.
-/

namespace SourceIndex

/-- The sums that the cosine is computed from: of the products of the entries, and of the squares of
either vector. -/
structure CosineSums where
  dot : Float := 0.0
  normLeft : Float := 0.0
  normRight : Float := 0.0

/-- The sums with one more pair of entries. -/
def CosineSums.add (sums : CosineSums) (entry : Float × Float) : CosineSums where
  dot := sums.dot + entry.1 * entry.2
  normLeft := sums.normLeft + entry.1 * entry.1
  normRight := sums.normRight + entry.2 * entry.2

/-- The cosine of the angle between two vectors, or zero if there is none. -/
def cosine (a b : List Float) : Float :=
  if a.length != b.length || a.isEmpty then 0.0
  else
    let sums := (a.zip b).foldl CosineSums.add {}
    let denominator := sums.normLeft.sqrt * sums.normRight.sqrt
    if denominator == 0.0 then 0.0 else sums.dot / denominator

end SourceIndex
