import SourceIndex.Fingerprint
import SourceIndex.Code.Features
import SourceIndex.Path.Name
import SourceIndex.Term.Basic

/-!
# Chunks

A chunk is a named piece of one file: some consecutive lines, or a statement, with the numbers of
its first and last line, an identifier, and what was read off its text. `Chunk.make` computes the
identifier and the features; this is how the chunkers of this library make all their chunks. Other
chunkers may fill a chunk with anything.
-/

namespace SourceIndex

/-- What a chunk holds. A hook is a function whose name marks it as one, `exported` is an exported
declaration of another kind, and `other` is a kind that only its label names. -/
inductive Chunk.Kind where
  | component
  | function
  | hook
  | classDecl
  | interfaceDecl
  | typeDecl
  | imports
  | constant
  | exported
  | style
  | query
  | config
  | unknown
  | other (label : Text)
  deriving DecidableEq, Repr

namespace Chunk.Kind

/-- The label of a kind. -/
def label : Chunk.Kind → Text
  | component => "component".toList
  | function => "function".toList
  | hook => "hook".toList
  | classDecl => "class".toList
  | interfaceDecl => "interface".toList
  | typeDecl => "type".toList
  | imports => "import".toList
  | constant => "constant".toList
  | exported => "export".toList
  | style => "style".toList
  | query => "query".toList
  | config => "config".toList
  | unknown => "unknown".toList
  | other l => l

/-- The kinds that have a name of their own. -/
def named : List Chunk.Kind :=
  [component, function, hook, classDecl, interfaceDecl, typeDecl, imports, constant, exported,
    style, query, config, unknown]

/-- The kind with a label. -/
def ofLabel (l : Text) : Chunk.Kind :=
  (named.find? (·.label == l)).getD (other l)

end Chunk.Kind

/-- What is known of the text of a chunk besides its words and names: whether it looks like markup,
mentions hooks and sets style classes, how complex it is, and how many lines it has. -/
structure Chunk.Metadata where
  hasMarkup : Bool
  hasHooks : Bool
  hasStyleAttribute : Bool
  complexity : Int
  lineCount : Int
  deriving DecidableEq, Repr

/-- A named piece of one file. Lines are counted from zero, the modules that the text imports from are
its dependencies, and the hash is its fingerprint. All fields are data: nothing ties the identifier to
the place of the chunk, or the features to its text. The vector of a chunk is no part of it, since it
depends on all other chunks of a project. -/
structure Chunk where
  id : Text
  path : Text
  kind : Chunk.Kind
  name : Text
  content : Text
  startLine : Int
  endLine : Int
  dependencies : List Text
  exports : List Text
  terms : List Text
  hash : Text
  metadata : Chunk.Metadata
  deriving DecidableEq, Repr

namespace Chunk

/-- The identifier of the chunk of a file that has a name and a first line. -/
def idOf (path name : Text) (startLine : Int) : Text :=
  path ++ ':' :: name ++ ':' :: Text.ofInt startLine

/-- The chunk at a place of a file, with its identifier and the features of its text. -/
def make (path : Text) (kind : Chunk.Kind) (name content : Text) (startLine endLine : Int) :
    Chunk where
  id := idOf path name startLine
  path := path
  kind := kind
  name := name
  content := content
  startLine := startLine
  endLine := endLine
  dependencies := SourceIndex.dependencies content
  exports := SourceIndex.exports content
  terms := Text.terms content
  hash := fingerprint content
  metadata :=
    { hasMarkup := looksLikeMarkup content
      hasHooks := mentionsHook content
      hasStyleAttribute := mentionsStyle content
      complexity := complexity content
      lineCount := endLine - startLine + 1 }

/-- The key under which a chunk declares its name. -/
def symbolKey (c : Chunk) : Text :=
  c.path ++ ':' :: c.name

/-- The chunk of the lines of a block. -/
def ofBlock (path : Text) (kind : Chunk.Kind) (name : Text) (first : Nat) (lines : List Text) :
    Chunk :=
  make path kind name (Text.unlines lines) first (first + lines.length - 1 : Nat)

/-- The chunk of a whole file, named after the file. -/
def wholeFile (path : Text) (kind : Chunk.Kind) (content : Text) : Chunk :=
  make path kind (Path.baseName path) content 0 (content.lines.length - 1 : Nat)

end Chunk

end SourceIndex
