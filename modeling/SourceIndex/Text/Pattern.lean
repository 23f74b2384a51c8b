import SourceIndex.Text.Blank
import SourceIndex.Text.Word

/-!
# Patterns and scans

A pattern looks at the start of a text and either fails or gives what it found together with the
text after the find. A scan tries a pattern at every position from left to right; after a find it
goes on behind it. `pieces` is the record of one scan: every character passed over and every find,
in order. Searching, collecting and replacing are views of that record.
-/

namespace SourceIndex

/-- A test of the start of a text: the find and the text after it. -/
abbrev Pattern (α : Type) := Text → Option (α × Text)

/-- One step of a scan: a character at which the pattern failed, or a find. -/
inductive Piece (α : Type) where
  | passed (c : Char)
  | found (a : α)

namespace Pattern

variable {α : Type}

/-- The steps of a scan that first skips `skip` characters: the rest of the last find. -/
def piecesFrom (p : Pattern α) : Nat → Text → List (Piece α)
  | _, [] => []
  | skip + 1, _ :: s => piecesFrom p skip s
  | 0, c :: s =>
    match p (c :: s) with
    | some (a, rest) => .found a :: piecesFrom p (s.length - rest.length) s
    | none => .passed c :: piecesFrom p 0 s

/-- The steps of a scan of a text. -/
def pieces (p : Pattern α) (s : Text) : List (Piece α) :=
  piecesFrom p 0 s

/-- All finds in a text, from left to right. -/
def findAll (p : Pattern α) (s : Text) : List α :=
  (p.pieces s).filterMap fun
    | .passed _ => none
    | .found a => some a

/-- The text with every find replaced. -/
def replaceAll (p : Pattern α) (f : α → Text) (s : Text) : Text :=
  (p.pieces s).flatMap fun
    | .passed c => [c]
    | .found a => f a

/-- The text without its finds. -/
def eraseAll (p : Pattern α) (s : Text) : Text :=
  p.replaceAll (fun _ => []) s

/-- The first find in a text. -/
def find? (p : Pattern α) : Text → Option α
  | [] => none
  | c :: s =>
    match p (c :: s) with
    | some (a, _) => some a
    | none => find? p s

/-- Whether the pattern finds something in the text. -/
def occursIn (p : Pattern α) (s : Text) : Bool :=
  (p.find? s).isSome

/-- The number of finds in a text. -/
def count (p : Pattern α) (s : Text) : Nat :=
  (p.findAll s).length

/-- The parts of a text before, between and after the finds, each with the find that ends it. -/
def splitAfter (p : Pattern α) (s : Text) : List (Text × α) × Text :=
  (p.pieces s).foldr
    (fun piece split =>
      match piece, split with
      | .found a, (parts, last) => (([], a) :: parts, last)
      | .passed c, ((part, a) :: parts, last) => ((c :: part, a) :: parts, last)
      | .passed c, ([], last) => ([], c :: last))
    ([], [])

end Pattern

namespace Text

/-- The text after the optional word `w` and the blanks behind it; the text itself if `w` or the
blanks are missing. -/
def skipWord (s w : Text) : Text :=
  ((s.after? w).bind afterBlanks?).getD s

/-- The text after the first of the words that it starts with, and that word. -/
def afterOneOf? (s : Text) (words : List Text) : Option (Text × Text) :=
  words.findSome? fun w => (s.after? w).map (w, ·)

end Text

end SourceIndex
