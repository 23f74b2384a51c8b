import SourceIndex.Text.Pattern

/-!
# Repairs

Two changes to a text: images without an alternative text get an empty one, and calls that write
to the console become comments. They work on the text alone. An image counts as having a text if the
rest of its line mentions one, and a call ends at the first closing parenthesis.
-/

namespace SourceIndex

/-- What a repair changes: images get an empty alternative text, console calls become comments. -/
inductive RepairKind where
  | imageTexts
  | consoleCalls
  deriving DecidableEq, Repr

/-- The label of a kind of repair. -/
def RepairKind.label : RepairKind → Text
  | imageTexts => "Added missing alt attributes to images".toList
  | consoleCalls => "Commented out console.log statements".toList

/-- A repaired text. -/
structure Repair where
  text : Text
  kinds : List RepairKind
  deriving DecidableEq, Repr

namespace Repair

/-- The attributes of an image up to the end of its tag, unless the line mentions an alternative
text or there are none. -/
def attributes? (s : Text) : Option (Text × Text) :=
  if Text.contains (s.takeWhile (· != '\n')) "alt=".toList then none
  else
    match s.span (· != '>') with
    | (c :: attributes, '>' :: rest) => some (c :: attributes, rest)
    | _ => none

/-- The attributes of an image behind one or more blanks, as many as possible. -/
def attributesAfterBlanks? : Text → Option (Text × Text)
  | [] => none
  | c :: rest =>
    if isBlankChar c then (attributesAfterBlanks? rest).or (attributes? rest) else none

/-- An image without an alternative text; the find is its attributes. -/
def imageWithoutText : Pattern Text := fun s => do
  attributesAfterBlanks? (← s.after? "<img".toList)

/-- An image with an empty alternative text and the given attributes. -/
def imageWithText (attributes : Text) : Text :=
  "<img alt=\"\" ".toList ++ attributes ++ ['>']

/-- A call that writes to the console, with the semicolon behind it if there is one; the find is its
arguments. -/
def consoleCall : Pattern Text := fun s => do
  match (← s.after? "console.log(".toList).span (· != ')') with
  | (arguments, ')' :: ';' :: rest) => some (arguments, rest)
  | (arguments, ')' :: rest) => some (arguments, rest)
  | _ => none

/-- A comment that holds a call with the given arguments. -/
def consoleComment (arguments : Text) : Text :=
  "// console.log(".toList ++ arguments ++ ");".toList

/-- The text with an alternative text for every image. -/
def addImageTexts (s : Text) : Text :=
  imageWithoutText.replaceAll imageWithText s

/-- The text with every console call in a comment. -/
def commentConsoleCalls (s : Text) : Text :=
  consoleCall.replaceAll consoleComment s

end Repair

/-- The text with both repairs, the images first. The console calls count as repaired as soon as the
text has the start of one. -/
def repair (s : Text) : Repair :=
  let hasImages := Repair.imageWithoutText.occursIn s
  let s := if hasImages then Repair.addImageTexts s else s
  let hasCalls := s.contains "console.log(".toList
  { text := if hasCalls then Repair.commentConsoleCalls s else s
    kinds :=
      (if hasImages then [.imageTexts] else []) ++ (if hasCalls then [.consoleCalls] else []) }

end SourceIndex
