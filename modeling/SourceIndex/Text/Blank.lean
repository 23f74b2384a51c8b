import SourceIndex.Text.Range

/-!
# Blank characters

Spaces, tabs, line breaks, the four information separators and the wide spaces of other scripts are
blank; zero-width characters and the byte order mark are not. Trimming removes blanks at the ends of
a text, and `words` are the longest parts without blanks.
-/

namespace SourceIndex

/-- The code points of the blank characters, ascending. -/
def blankRanges : List (Nat × Nat) :=
  [(9, 13), (28, 32), (133, 133), (160, 160), (5760, 5760), (8192, 8202), (8232, 8233), (8239,
   8239), (8287, 8287), (12288, 12288)]

/-- Whether a character is blank. -/
def isBlankChar (c : Char) : Bool :=
  inRanges blankRanges c.toNat

namespace Text

/-- Whether a text has no character that is not blank. -/
def isBlank (s : Text) : Bool :=
  s.all isBlankChar

/-- The text without the blanks at its start. -/
def trimStart (s : Text) : Text :=
  s.dropWhile isBlankChar

/-- The text without the blanks at its end. -/
def trimEnd (s : Text) : Text :=
  (s.reverse.dropWhile isBlankChar).reverse

/-- The text without the blanks at either end. -/
def trim (s : Text) : Text :=
  trimEnd (trimStart s)

/-- The longest parts of a text without blanks. -/
def words (s : Text) : List Text :=
  (s.splitOnP isBlankChar).filter (fun w => !w.isEmpty)

/-- The text after one or more blanks, all of them, that it starts with. -/
def afterBlanks? : Text → Option Text
  | [] => none
  | c :: rest => if isBlankChar c then some (trimStart rest) else none

end Text

end SourceIndex
