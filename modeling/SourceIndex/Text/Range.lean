import SourceIndex.Text.Basic

/-!
# Ranges of code points

Classes of characters are kept as ascending lists of ranges, closed at both ends, or of runs, whose
members lie a fixed step apart. A look-up stops at the first range that lies beyond the character,
so that the common characters, which come first, are found at once.
-/

namespace SourceIndex

/-- Whether a code point lies in one of the ascending ranges. -/
def inRanges : List (Nat × Nat) → Nat → Bool
  | [], _ => false
  | (first, last) :: rest, n =>
    if n < first then false else if n ≤ last then true else inRanges rest n

/-- Whether a code point is a member of one of the ascending runs `(first, last, step)`. -/
def inRuns : List (Nat × Nat × Nat) → Nat → Bool
  | [], _ => false
  | (first, last, step) :: rest, n =>
    if n < first then false
    else if n ≤ last && (n - first) % step == 0 then true
    else inRuns rest n

end SourceIndex
