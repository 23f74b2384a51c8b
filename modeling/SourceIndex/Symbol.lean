import SourceIndex.Chunk.Basic
import SourceIndex.OrderedMap

/-!
# Symbols

Every chunk that is neither an import run nor unknown text declares its name. The symbol table has
one entry for each path and name, that of the last declaration, at the place of the first. An entry
lists the other files whose chunks mention the name. The graph of imports lists for each file the
modules that its import chunks name.
-/

namespace SourceIndex

/-- A declaration at a line of a file: whether its text mentions an export, and the paths of the
other files that mention its name. -/
structure Symbol where
  name : Text
  kind : Chunk.Kind
  path : Text
  line : Int
  exported : Bool
  references : List Text := []
  deriving DecidableEq, Repr

/-- The key of a symbol in the table. -/
def Symbol.key (s : Symbol) : Text :=
  s.path ++ ':' :: s.name

/-- What a chunk of a kind declares, if anything: a hook declares a function. -/
def Chunk.Kind.declares? : Chunk.Kind → Option Chunk.Kind
  | .imports => none
  | .unknown => none
  | .hook => some .function
  | k => some k

/-- The symbol that a chunk declares. -/
def Chunk.symbol? (c : Chunk) : Option Symbol :=
  c.kind.declares?.map fun kind =>
    { name := c.name, kind := kind, path := c.path, line := c.startLine
      exported := c.content.contains "export".toList }

/-- The symbols that the chunks of a file declare. -/
def declaredSymbols (chunks : List Chunk) : List Symbol :=
  chunks.filterMap Chunk.symbol?

/-- The symbols of a project by their keys. -/
abbrev SymbolTable := OrderedMap Text Symbol

namespace SymbolTable

/-- The table of symbols without references. -/
def ofSymbols (symbols : List Symbol) : SymbolTable :=
  symbols.foldl (fun table s => table.insert s.key s) .empty

/-- The paths of the chunks of other files that mention a symbol, each at its first mention. -/
def mentions (chunks : List Chunk) (s : Symbol) : List Text :=
  ((chunks.filter fun c => c.path != s.path && c.content.contains s.name).map (·.path)).eraseDups

/-- The table of symbols, each with the files that mention it in one of the chunks. -/
def build (symbols : List Symbol) (chunks : List Chunk) : SymbolTable :=
  (ofSymbols symbols).mapValues fun _ s => { s with references := mentions chunks s }

/-- The entries of a table for keys that it has, in the order of the keys. -/
def restrict (table : SymbolTable) (keys : List Text) : SymbolTable :=
  keys.foldl
    (fun found key =>
      match table.get? key with
      | some s => found.insert key s
      | none => found)
    .empty

end SymbolTable

/-- The modules that the import chunks of a file name, in order. -/
def importedModules (chunks : List Chunk) : List Text :=
  (chunks.filter (·.kind == .imports)).flatMap (·.dependencies)

/-- The modules that each file imports. -/
abbrev ImportGraph := OrderedMap Text (List Text)

end SourceIndex
