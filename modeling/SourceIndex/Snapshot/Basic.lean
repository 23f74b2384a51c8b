import SourceIndex.Chunker.Basic
import SourceIndex.Project
import SourceIndex.Symbol
import SourceIndex.Term.Index

/-!
# Snapshots

A snapshot is everything that is known of one version of a project. It is determined by the records
of the files, each with the fingerprint, the chunks and the symbols of one file: `Snapshot.ofFiles`
computes all other parts from them.
-/

namespace SourceIndex

/-- What is known of one file: the fingerprint of its content, its chunks, and the symbols that the
chunks declare, without references. -/
structure FileRecord where
  path : Text
  hash : Text
  chunks : List Chunk
  symbols : List Symbol
  deriving DecidableEq, Repr

/-- What is known of one version of a project. The records of the files stand in the order in which
the files were supplied, and everything else is computed from them. Before the first version there
are none, the root is empty and the version is zero. -/
structure Snapshot where
  files : OrderedMap Text FileRecord := .empty
  chunks : List IndexedChunk := []
  terms : TermIndex := {}
  symbols : SymbolTable := .empty
  imports : ImportGraph := .empty
  root : Text := []
  version : Nat := 0

namespace Snapshot

/-- The chunks of all files, file by file. -/
def chunksOf (files : OrderedMap Text FileRecord) : List Chunk :=
  files.values.flatMap (·.chunks)

/-- The symbols of all files, file by file. -/
def symbolsOf (files : OrderedMap Text FileRecord) : List Symbol :=
  files.values.flatMap (·.symbols)

/-- The modules that each file imports, file by file. -/
def importsOf (files : OrderedMap Text FileRecord) : ImportGraph :=
  .ofList (files.values.map fun f => (f.path, importedModules f.chunks))

/-- The snapshot of a version with the given files. -/
def ofFiles (files : OrderedMap Text FileRecord) (version : Nat) : Snapshot :=
  let chunks := chunksOf files
  let terms := TermIndex.ofChunks chunks
  { files := files
    chunks := terms.bind chunks
    terms := terms
    symbols := .build (symbolsOf files) chunks
    imports := importsOf files
    root := Fingerprint.root (files.values.map (·.hash))
    version := version }

/-- The fingerprints of the files by their paths. -/
def fingerprints (s : Snapshot) : OrderedMap Text Text :=
  s.files.mapValues fun _ f => f.hash

/-- The chunks of one file. -/
def chunksAt (s : Snapshot) (path : Text) : List IndexedChunk :=
  s.chunks.filter fun c => c.path == path

end Snapshot

end SourceIndex
