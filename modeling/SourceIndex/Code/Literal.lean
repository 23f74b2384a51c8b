import SourceIndex.Text.Pattern

/-!
# Literals and comments

A literal runs from a quote to the next quote of its kind; a backslash takes the character behind it
along, unless that is a newline. A block comment stays within its line. A line comment ends the
text. Anything that does not close in this way is ordinary text, so `withoutLiterals` is exact on a
line whose literals and comments are complete and leaves the rest alone.
-/

namespace SourceIndex

/-- Whether a character opens and closes literals. -/
def isQuote (c : Char) : Bool :=
  c == '\'' || c == '"' || c == '\x60'

/-- The text after the quote that closes a literal, from inside the literal. -/
def afterLiteral? (quote : Char) : Text → Option Text
  | [] => none
  | '\\' :: c :: rest => if c == '\n' then none else afterLiteral? quote rest
  | c :: rest =>
    if c == quote then some rest else if c == '\\' then none else afterLiteral? quote rest

/-- The text after the end of a block comment, from inside the comment. -/
def afterBlockComment? : Text → Option Text
  | [] => none
  | '*' :: '/' :: rest => some rest
  | c :: rest => if c == '\n' then none else afterBlockComment? rest

/-- The text after a line comment, from inside the comment: nothing, or a newline that ends it. -/
def afterLineComment? (s : Text) : Option Text :=
  match s.dropWhile (· != '\n') with
  | [] => some []
  | ['\n'] => some ['\n']
  | _ => none

/-- A complete literal or comment. -/
def literalOrComment : Pattern Unit
  | '/' :: '*' :: rest => (afterBlockComment? rest).map ((), ·)
  | '/' :: '/' :: rest => (afterLineComment? rest).map ((), ·)
  | c :: rest => if isQuote c then (afterLiteral? c rest).map ((), ·) else none
  | [] => none

/-- The text without its complete literals and comments. -/
def withoutLiterals (s : Text) : Text :=
  literalOrComment.eraseAll s

end SourceIndex
