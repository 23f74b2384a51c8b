import SourceIndex.Chunker.Basic
import SourceIndex.Code.Block

/-!
# Scripts

A script is cut into the first run of its imports, then its interface and type declarations, then
its functions and constants. Declarations are recognised by the text of one line and extend over
the block of lines that starts there. Interface and type declarations are looked for at the start
of lines and in the whole file; functions and constants below the imports and wherever they are
indented to, but not inside interface and type declarations. A script without any of these is one
chunk.
-/

namespace SourceIndex

namespace Script

/-- The extensions of scripts. -/
def defaultExtensions : List Text :=
  [".ts", ".tsx", ".js", ".jsx", ".mts", ".cts", ".mjs", ".cjs"].map String.toList

/-! ## Imports -/

/-- Whether a trimmed line starts an import. -/
def startsImport (line : Text) : Bool :=
  line.startsWith "import ".toList || line.startsWith "import\x7b".toList

/-- Whether a trimmed line opens a brace without closing one. -/
def leavesOpen (line : Text) : Bool :=
  line.contains ['{'] && !line.contains ['}']

/-- Whether a trimmed line ends an import. -/
def closesImport (line : Text) : Bool :=
  line.startsWith ['}'] || line.contains "from '".toList || line.contains "from \"".toList

/-- The number of the last line of a run of imports. `last` is the last line known to belong to it,
`isOpen` tells whether an import has not been closed, and the lines to look at start at `index`. -/
def importRunEnd : (isOpen : Bool) → (last index : Nat) → List Text → Nat
  | _, last, _, [] => last
  | true, _, index, line :: rest => importRunEnd (!line.trim.contains ['}']) index (index + 1) rest
  | false, last, index, line :: rest =>
    let line := line.trim
    if startsImport line then importRunEnd (leavesOpen line) index (index + 1) rest
    else if line.isEmpty then importRunEnd false last (index + 1) rest
    else if closesImport line then importRunEnd false index (index + 1) rest
    else last

/-- The numbers of the first and the last line of the first run of imports. -/
def importRun? (lines : List Text) : Option (Nat × Nat) :=
  (lines.findIdx? fun line => startsImport line.trim).map fun start =>
    (start, importRunEnd false start start (lines.drop start))

/-! ## Declarations -/

/-- The kind and the name of the interface or type that a text starts by declaring. -/
def typeDeclaration? (s : Text) : Option (Chunk.Kind × Text) := do
  let (word, s) ← (s.skipWord "export".toList).afterOneOf? ["interface".toList, "type".toList]
  let s ← s.afterBlanks?
  let (name, _) ← s.takeWord
  some (if word == "interface".toList then .interfaceDecl else .typeDecl, name)

/-- The text after the keyword `function`, if no word character follows it. -/
def afterFunctionKeyword? (s : Text) : Option Text := do
  let s ← s.after? "function".toList
  if (s.head?.map isWordChar).getD false then none else some s

/-- The name of the function that a text starts by declaring. -/
def functionDeclaration? (s : Text) : Option Text := do
  let s := ((s.skipWord "export".toList).skipWord "default".toList).skipWord "async".toList
  let s := (← afterFunctionKeyword? s).trimStart
  let s := ((s.after? ['*']).getD s).trimStart
  let (name, _) ← s.takeWord
  some name

/-- The name that one of the given keywords binds, and the trimmed text after the name. -/
def binding? (keywords : List Text) (s : Text) : Option (Text × Text) := do
  let (_, s) ← (s.skipWord "export".toList).afterOneOf? keywords
  let s ← s.afterBlanks?
  let (name, s) ← s.takeWord
  some (name, s.trimStart)

/-- The text after an equals sign or a colon. -/
def afterAssignment? : Text → Option Text
  | c :: rest => if c == '=' || c == ':' then some rest else none
  | [] => none

/-- The name of the arrow function that a text starts by binding. -/
def arrowBinding? (s : Text) : Option Text := do
  let (name, s) ← binding? ["const".toList, "let".toList] s
  let s ← afterAssignment? s
  if s.contains "=>".toList then some name else none

/-- The end of a parameter list: a closing parenthesis before an arrow or a colon. -/
def parametersEnd : Pattern Unit := fun s => do
  let s := (← s.after? [')']).trimStart
  if s.startsWith "=>".toList || s.startsWith [':'] then some ((), s) else none

/-- The name of the function expression that a text starts by binding. -/
def functionBinding? (s : Text) : Option Text := do
  let (name, s) ← binding? ["const".toList, "let".toList] s
  let s := (← s.after? ['=']).trimStart
  let isFunction :=
    match s with
    | '(' :: rest => parametersEnd.occursIn rest
    | _ => (afterFunctionKeyword? (s.skipWord "async".toList)).isSome
  if isFunction then some name else none

/-- The name of the function that a text starts by declaring or binding. -/
def functionName? (s : Text) : Option Text :=
  ((functionDeclaration? s).or (arrowBinding? s)).or (functionBinding? s)

/-- The name of the constant that a text starts by binding to an array or an object. -/
def literalConstant? (s : Text) : Option Text := do
  let (name, s) ← binding? ["const".toList] s
  match (← afterAssignment? s).trimStart with
  | c :: _ => if c == '[' || c == '{' then some name else none
  | [] => none

/-- Whether a name is that of a hook: `use` alone or before a capital or a digit. -/
def isHookName (name : Text) : Bool :=
  match name.after? "use".toList with
  | some [] => true
  | some ['\n'] => true
  | some (c :: _) => c.isUpper || c.isDigit
  | none => false

/-- The kind of a function by its name. -/
def functionKind (name : Text) : Chunk.Kind :=
  if isHookName name then .hook
  else if (name.head?.map isUpperLetter).getD false then .component
  else .function

/-- What a trimmed line starts by declaring: nothing to keep for an interface or a type, or else the
kind and the name of a function or a constant. -/
def declaration? (line : Text) : Option (Option (Chunk.Kind × Text)) :=
  if (typeDeclaration? line).isSome then some none
  else
    match functionName? line with
    | some name => some (some (functionKind name, name))
    | none => (literalConstant? line).map fun name => some (.constant, name)

/-! ## Chunks -/

/-- The chunk of the imports of a script. -/
def importChunks (path : Text) (lines : List Text) : List Chunk :=
  match importRun? lines with
  | none => []
  | some (first, last) =>
    [.ofBlock path .imports "imports".toList first ((lines.drop first).take (last + 1 - first))]

/-- The chunks of the interfaces and types of a script. -/
def typeChunks (path : Text) (lines : List Text) : List Chunk :=
  (blocks typeDeclaration? 0 lines).map fun b =>
    .ofBlock path b.label.1 b.label.2 b.first b.lines

/-- The number of the first line below the imports. -/
def bodyStart (lines : List Text) : Nat :=
  match importRun? lines with
  | none => 0
  | some (_, last) => last + 1

/-- The chunks of the functions and constants of a script. -/
def valueChunks (path : Text) (lines : List Text) : List Chunk :=
  (blocks (fun line => declaration? line.trim) (bodyStart lines) lines).filterMap fun b =>
    b.label.map fun (kind, name) => .ofBlock path kind name b.first b.lines

/-- The chunks of a script. -/
def chunks (path content : Text) : List Chunk :=
  let lines := content.lines
  match importChunks path lines ++ typeChunks path lines ++ valueChunks path lines with
  | [] => [.wholeFile path .unknown content]
  | cs => cs

/-- The chunker for scripts. -/
def chunker (extensions : List Text) : Chunker :=
  .ofExtensions "script".toList extensions chunks

end Script

end SourceIndex
