import SourceIndex.Snapshot.Overview

/-!
# Issues

Heuristic findings in single lines of chunks: logging calls, the `any` type, markers of open work,
names that are imported but occur in no other chunk of their file, images without a text and
clickable containers. Issues come in the order of the chunks, then of their lines.
-/

namespace SourceIndex

/-- How serious an issue is. -/
inductive Severity where
  | error
  | warning
  | info
  deriving DecidableEq, Repr

/-- The label of a severity. -/
def Severity.label : Severity → Text
  | error => "error".toList
  | warning => "warning".toList
  | info => "info".toList

/-- What is found in a line. The preview of a marker of open work is the start of the line. -/
inductive Finding where
  | consoleLog
  | anyType
  | marker (preview : Text)
  | unusedImport (name : Text)
  | imageWithoutText
  | clickableContainer
  deriving DecidableEq, Repr

namespace Finding

/-- How serious a finding is. -/
def severity : Finding → Severity
  | marker _ => .info
  | imageWithoutText => .error
  | _ => .warning

/-- The message that reports a finding. -/
def message : Finding → Text
  | consoleLog => "console.log statement found - remove for production".toList
  | anyType => "TypeScript `any` type used - consider using a specific type".toList
  | marker preview => "Code marker found: ".toList ++ preview
  | unusedImport name => "Potentially unused import: ".toList ++ name
  | imageWithoutText => "Image missing alt attribute (accessibility)".toList
  | clickableContainer => "div with onClick - consider using <button> for accessibility".toList

/-- What to do about a finding. -/
def remedy : Finding → Text
  | consoleLog => "Remove or replace with proper logging".toList
  | anyType => "Replace `any` with a specific type or `unknown`".toList
  | marker _ => "Address the TODO/FIXME item".toList
  | unusedImport name => "Remove unused import '".toList ++ name ++ ['\'']
  | imageWithoutText => "Add alt=\"description\" to the <img> tag".toList
  | clickableContainer =>
    "Replace <div onClick> with <button onClick> for proper semantics".toList

end Finding

/-- A finding in a line of a file. -/
structure Issue where
  finding : Finding
  path : Text
  line : Int
  deriving DecidableEq, Repr

/-! ## Imported names -/

namespace ImportClause

/-- The items between braces. -/
def braced? : Text → Option (Text × Text)
  | '\x7b' :: rest =>
    match rest.span (· != '\x7d') with
    | (items, '\x7d' :: rest) => some (items, rest)
    | _ => none
  | _ => none

/-- The name of a namespace import. -/
def namespace? (s : Text) : Option (Text × Text) := do
  let s := (← s.after? ['*']).trimStart
  let s ← s.after? "as".toList
  let s ← s.afterBlanks?
  s.takeWord

/-- The text behind the last of the separators in a text, if there is one. -/
def afterLast? (separator : Text) : Text → Option Text
  | [] => none
  | c :: rest => (afterLast? separator rest).or (Text.after? (c :: rest) separator)

/-- The local name of an item between braces. -/
def itemName (item : Text) : Text :=
  let item := item.trim
  let item :=
    match item.after? "type ".toList with
    | some rest => rest.trim
    | none => item
  match afterLast? " as ".toList item with
  | some localName => localName.trim
  | none => item

/-- The local names of the items between braces. -/
def itemNames (items : Text) : List Text :=
  ((items.splitOn ',').map itemName).filter fun name => !name.isEmpty

/-- The name in front of braces or a namespace, and the text behind it and an optional comma. -/
def defaultName (s : Text) : List Text × Text :=
  match s.takeWord with
  | none => ([], s)
  | some (name, rest) =>
    let rest := rest.trimStart
    let rest := ((rest.after? [',']).getD rest).trimStart
    (if name = "from".toList then [] else [name], rest)

/-- The local names that a statement binds, from behind the word `import` and its blanks. -/
def names (s : Text) : List Text :=
  let (default, s) := defaultName (s.skipWord "type".toList)
  match braced? s with
  | some (items, _) => default ++ itemNames items
  | none =>
    match namespace? s with
    | some (name, _) => default ++ [name]
    | none => default

/-- The word `import` and the blanks behind it. -/
def start : Pattern Text := fun s => do
  let s ← (← s.after? "import".toList).afterBlanks?
  some (s, s)

end ImportClause

/-- The local names that the first import of a line binds. -/
def boundNames (line : Text) : List Text :=
  match ImportClause.start.find? line with
  | some clause => ImportClause.names clause
  | none => []

/-! ## Findings in lines -/

namespace Issue

/-- The number of characters that an issue shows of a line. -/
def previewLength : Nat := 60

/-- The markers of open work. -/
def markers : List Text :=
  ["TODO", "FIXME", "HACK"].map String.toList

/-- The findings that depend on the line alone and on the kind of its chunk. -/
def lineFindings (kind : Chunk.Kind) (line : Text) : List Finding :=
  (if line.contains "console.log".toList && kind != .config then [.consoleLog] else []) ++
  (if line.contains ": any".toList || line.contains "<any>".toList then [.anyType] else []) ++
  (if markers.any line.contains then [.marker (line.trim.take previewLength)] else [])

/-- The imported names of a line that none of the bodies mentions. -/
def unusedImports (bodies : List Text) (line : Text) : List Finding :=
  ((boundNames line).filter fun name => !bodies.any fun body => body.contains name).map
    .unusedImport

/-- The findings in a line of markup. -/
def markupFindings (line : Text) : List Finding :=
  (if line.contains "<img".toList && !line.contains "alt=".toList then [.imageWithoutText]
    else []) ++
  (if line.contains "<div".toList && line.contains "onClick".toList then [.clickableContainer]
    else [])

/-- The texts of the chunks of a file that hold no imports. -/
def bodiesOf (chunks : List Chunk) (path : Text) : List Text :=
  (chunks.filter fun c => c.kind != .imports && c.path == path).map (·.content)

/-- The findings in a line of a chunk of some kind, which is markup or not, in a file with the given
bodies. -/
def findings (bodies : List Text) (kind : Chunk.Kind) (isMarkup : Bool) (line : Text) :
    List Finding :=
  lineFindings kind line ++
  (if kind == .imports && line.contains "import".toList then unusedImports bodies line else []) ++
  (if isMarkup then markupFindings line else [])

/-- The issues of a chunk of a file with the given bodies. -/
def inChunk (bodies : List Text) (c : Chunk) : List Issue :=
  c.numberedLines.flatMap fun (n, line) =>
    (findings bodies c.kind c.metadata.hasMarkup line).map fun f =>
      { finding := f, path := c.path, line := n }

/-- The issues of a list of chunks. -/
def inChunks (chunks : List Chunk) : List Issue :=
  chunks.flatMap fun c => inChunk (bodiesOf chunks c.path) c

end Issue

end SourceIndex
