import SourceIndex.Text.Pattern

/-!
# Features of a source text

What a text imports and exports, whether it looks like markup, calls hooks or sets a class name, and
an additive estimate of its complexity. All of it is read off the words of the text without parsing
it, so a match inside a comment counts like any other.
-/

namespace SourceIndex

/-- Whether a character quotes a module name. -/
def isModuleQuote (c : Char) : Bool :=
  c == '\'' || c == '"'

/-- A quoted text that does not cross a line, from behind its opening quote. It has at least one
character, and the first may itself be a quote. -/
def quotedModule? : Text → Option (Text × Text)
  | [] => none
  | c :: rest =>
    if c == '\n' then none
    else
      match rest.span (fun c => !(isModuleQuote c || c == '\n')) with
      | (name, q :: after) => if isModuleQuote q then some (c :: name, after) else none
      | (_, []) => none

/-- Whether a text is what may stand between `import` and the quote of a module name: a clause in
blanks, the word `from` and blanks. -/
def isImportClause (s : Text) : Bool :=
  let inner := s.trimEnd
  let clause := inner.take (inner.length - 4)
  inner.length < s.length && inner.endsWith "from".toList && 2 ≤ clause.length &&
    (clause.head?.map isBlankChar).getD false && (clause.getLast?.map isBlankChar).getD false

/-- The module of an `import … from` statement. -/
def importedModule : Pattern Text := fun s => do
  let s ← s.after? "import".toList
  match s.span (fun c => !(isModuleQuote c || c == ';')) with
  | (clause, q :: rest) =>
    if isModuleQuote q && isImportClause clause then quotedModule? rest else none
  | (_, []) => none

/-- The name that an `export` declares. -/
def exportedName : Pattern Text := fun s => do
  let s ← s.after? "export".toList
  let s ← s.afterBlanks?
  let (_, s) ← (s.skipWord "default".toList).afterOneOf?
    ["function".toList, "const".toList, "class".toList, "interface".toList, "type".toList]
  let s ← s.afterBlanks?
  s.takeWord

/-- The modules that a text imports from, in order. -/
def dependencies (s : Text) : List Text :=
  importedModule.findAll s

/-- The names that a text exports, in order. -/
def exports (s : Text) : List Text :=
  exportedName.findAll s

/-- The start of a tag. -/
def tagStart : Pattern Unit
  | '<' :: c :: rest => if isWordChar c then some ((), rest) else none
  | _ => none

/-- Whether a text looks as if it contained tags. -/
def looksLikeMarkup (s : Text) : Bool :=
  tagStart.occursIn s && s.contains ['>']

/-- The start of the name of a hook. -/
def hookStart : Pattern Unit := fun s => do
  match ← s.after? "use".toList with
  | c :: rest => if 'A' ≤ c ∧ c ≤ 'Z' then some ((), rest) else none
  | [] => none

/-- Whether a text mentions a hook. -/
def mentionsHook (s : Text) : Bool :=
  hookStart.occursIn s

/-- Whether a text mentions the attribute that names style classes. -/
def mentionsStyle (s : Text) : Bool :=
  s.contains "className".toList

/-- The word `w`, blanks or none, and an opening parenthesis. -/
def callOf (w : Text) : Pattern Unit := fun s => do
  let s ← s.after? w
  let s ← s.trimStart.after? ['(']
  some ((), s)

/-- The word `else` and a blank. -/
def elseBranch : Pattern Unit := fun s => do
  match ← s.after? "else".toList with
  | c :: rest => if isBlankChar c then some ((), rest) else none
  | [] => none

/-- A question mark, blanks or none, and a word character. -/
def conditional : Pattern Unit := fun s => do
  match (← s.after? ['?']).trimStart with
  | c :: rest => if isWordChar c then some ((), rest) else none
  | [] => none

/-- The operator `op`. -/
def operator (op : Text) : Pattern Unit := fun s =>
  (s.after? op).map ((), ·)

/-- What adds a path to a piece of code. -/
def branchings : List (Pattern Unit) :=
  [callOf "if".toList, elseBranch, callOf "for".toList, callOf "while".toList,
    callOf "switch".toList, conditional, operator "&&".toList, operator "||".toList,
    callOf "catch".toList]

/-- One path, and one more for every branching. -/
def complexity (s : Text) : Nat :=
  1 + (branchings.map (·.count s)).foldr (· + ·) 0

end SourceIndex
