import SourceIndex.Chunker.Basic

/-!
# Query files

A file of a query language is split where a semicolon ends a line. Each statement that is not
blank becomes a chunk, trimmed at both ends and named after the object that it creates.
`statements` tracks the line numbers through the whole file: blanks around a statement count for
the lines of the file but not for those of the chunk.
-/

namespace SourceIndex

namespace QueryFile

/-- The extensions of query files. -/
def defaultExtensions : List Text :=
  [".sql"].map String.toList

/-- Whether a character may stand between a semicolon and the newline that makes it a separator. -/
def isSeparatorBlank (c : Char) : Bool :=
  c == ' ' || c == '\t' || c == '\r' || c == '\x0c' || c == '\x0b'

/-- A semicolon that ends a line, with everything up to the newline. -/
def separator : Pattern Text
  | ';' :: rest =>
    match rest.span isSeparatorBlank with
    | (blanks, '\n' :: after) => some (';' :: blanks ++ ['\n'], after)
    | _ => none
  | _ => none

/-- The raw statements of a file, each with the separator behind it; the last one has none. -/
def splitStatements (content : Text) : List (Text × Text) :=
  let (parts, last) := separator.splitAfter content
  parts ++ [(last, [])]

/-- Whether a character equals a lower-case letter when case does not matter. The dotted and dotless
forms of `i` and the long `s` count as forms of their letters. -/
def matchesLetter (c letter : Char) : Bool :=
  lowerChar c == letter || (letter == 'i' && (c == 'İ' || c == 'ı')) || (letter == 's' && c == 'ſ')

/-- The text after a word in lower case, if the text starts with the word in any case. -/
def afterKeyword? : Text → Text → Option Text
  | s, [] => some s
  | [], _ :: _ => none
  | c :: s, d :: w => if matchesLetter c d then afterKeyword? s w else none

/-- The text after keywords that are each followed by blanks. -/
def afterKeywords? (s : Text) (keywords : List Text) : Option Text :=
  keywords.foldl (fun s w => s.bind fun s => (afterKeyword? s w).bind Text.afterBlanks?) (some s)

/-- The text after optional keywords. -/
def skipKeywords (s : Text) (keywords : List Text) : Text :=
  (afterKeywords? s keywords).getD s

/-- The kinds of objects whose creation names a statement. -/
def objectKinds : List Text :=
  ["table", "index", "policy", "view", "function", "trigger", "type"].map String.toList

/-- A name, possibly behind an opening quote. -/
def objectName : Pattern Text
  | c :: rest =>
    if c == '"' || c == '\'' || c == '\x60' then Text.takeWord rest else Text.takeWord (c :: rest)
  | [] => none

/-- The name of the object that a statement creates. The words of an existence test are skipped if a
name follows them. -/
def createdName : Pattern Text := fun s => do
  let s ← afterKeywords? s ["create".toList]
  let s := skipKeywords s ["or".toList, "replace".toList]
  let s := skipKeywords s ["unique".toList]
  let s ← objectKinds.findSome? fun kind => afterKeywords? s [kind]
  (objectName (skipKeywords s ["if".toList, "not".toList, "exists".toList])).or (objectName s)

/-- The name of a statement that creates nothing. -/
def unnamed : Text :=
  "statement".toList

/-- The name of a statement. -/
def statementName (statement : Text) : Text :=
  (createdName.find? statement).getD unnamed

/-- The number of newlines in a text. -/
def newlines (s : Text) : Nat :=
  s.count '\n'

/-- The chunk of a raw statement that has `offset` lines before it. -/
def statementChunk (path : Text) (offset : Nat) (raw : Text) : Chunk :=
  let statement := raw.trim
  let start := offset + newlines (raw.takeWhile isBlankChar)
  .make path .query (statementName statement) statement start (start + newlines statement : Nat)

/-- The chunks of raw statements that have `offset` lines before them. -/
def statementsFrom (path : Text) : (offset : Nat) → List (Text × Text) → List Chunk
  | _, [] => []
  | offset, (raw, sep) :: rest =>
    let others := statementsFrom path (offset + newlines raw + newlines sep) rest
    if raw.isBlank then others else statementChunk path offset raw :: others

/-- The chunks of a query file. -/
def statements (path content : Text) : List Chunk :=
  statementsFrom path 0 (splitStatements content)

/-- The chunker for query files. -/
def chunker (extensions : List Text) : Chunker :=
  .ofExtensions "query".toList extensions statements

end QueryFile

end SourceIndex
