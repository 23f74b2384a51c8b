import SourceIndex.Text.Basic

/-!
# Fingerprints

A fingerprint is the 32-bit FNV-1a hash of the code points of a text, written as eight lower-case
hexadecimal digits. It detects changes; it does not resist collisions. The root of a list of
fingerprints folds neighbours pairwise, level by level, and depends on their order.
-/

namespace SourceIndex

/-- One step of the hash: mix in a code point, then multiply. -/
def mixChar (h : UInt32) (c : Char) : UInt32 :=
  (h ^^^ c.val) * 0x01000193

/-- The hash of a text that goes on from the hash `h` of the text before it. -/
def hashFrom (h : UInt32) (s : Text) : UInt32 :=
  s.foldl mixChar h

/-- The hash of a text. -/
def hash32 (s : Text) : UInt32 :=
  hashFrom 0x811C9DC5 s

/-- The fingerprint of a text. -/
def fingerprint (s : Text) : Text :=
  Text.hex 8 (hash32 s).toNat

namespace Fingerprint

/-- The root of an empty list. -/
def emptyRoot : Text :=
  "00000000".toList

/-- One level of the fold: neighbours are joined and fingerprinted, a last one without a neighbour
is joined with itself. -/
def joinPairs : List Text → List Text
  | [] => []
  | [a] => [fingerprint (a ++ a)]
  | a :: b :: rest => fingerprint (a ++ b) :: joinPairs rest

/-- A level has half as many entries, rounded up. -/
theorem length_joinPairs (hs : List Text) : (joinPairs hs).length = (hs.length + 1) / 2 := by
  fun_induction joinPairs hs with
  | case1 => rfl
  | case2 => simp
  | case3 a b rest ih => simp only [List.length_cons, ih]; omega

/-- The root of a list of fingerprints. -/
def root : List Text → Text
  | [] => emptyRoot
  | [h] => h
  | a :: b :: rest => root (joinPairs (a :: b :: rest))
termination_by hs => hs.length
decreasing_by simp only [length_joinPairs, List.length_cons]; omega

end Fingerprint

end SourceIndex
