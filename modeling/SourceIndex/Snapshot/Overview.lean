import SourceIndex.Snapshot.Basic

/-!
# Overview, statistics and references

Counts over a whole snapshot, its largest files, its statistics, and the lines that mention a name.
-/

namespace SourceIndex

/-- The size of a file: the line counts of its chunks, summed up. -/
structure FileSize where
  path : Text
  lines : Int
  deriving DecidableEq, Repr

/-- Counts over a whole snapshot. The types of files come in the order in which they were first
seen, and the largest files come the largest first. -/
structure Overview where
  totalFiles : Nat
  totalChunks : Nat
  totalSymbols : Nat
  componentCount : Nat
  hookCount : Nat
  functionCount : Nat
  totalComplexity : Int
  fileTypes : OrderedMap Text Nat
  largestFiles : List FileSize

/-- The average complexity of the chunks, zero if there are none. -/
def Overview.averageComplexity (o : Overview) : Float :=
  if o.totalChunks = 0 then 0.0 else Float.ofInt o.totalComplexity / o.totalChunks.toFloat

/-- The version, the root and the sizes of a snapshot. -/
structure IndexStats where
  version : Nat
  root : Text
  totalChunks : Nat
  totalFiles : Nat
  deriving DecidableEq, Repr

/-- A line that mentions a name, trimmed. -/
structure Reference where
  path : Text
  line : Int
  context : Text
  deriving DecidableEq, Repr

/-- The lines of a chunk with their numbers in the file. -/
def Chunk.numberedLines (c : Chunk) : List (Int × Text) :=
  c.content.lines.zipIdx.map fun (line, offset) => (c.startLine + offset, line)

namespace Snapshot

/-- The number of files that an overview lists as the largest. -/
def largestShown : Nat := 5

/-- The type of a file: its extension without dots. -/
def fileType (path : Text) : Text :=
  match (Path.extension path).dropWhile (· == '.') with
  | [] => "unknown".toList
  | t => t

/-- The number of chunks of a kind. -/
def countKind (s : Snapshot) (kind : Chunk.Kind) : Nat :=
  (chunksOf s.files).countP (·.kind == kind)

/-- The sizes of all files, the largest first; files of one size keep their order. -/
def fileSizes (s : Snapshot) : List FileSize :=
  let sizes : List FileSize := s.files.entries.map fun (path, f) =>
    { path := path, lines := (f.chunks.map (·.metadata.lineCount)).foldr (· + ·) 0 }
  sizes.mergeSort fun a b => decide (b.lines ≤ a.lines)

/-- The counts over a snapshot. -/
def overview (s : Snapshot) : Overview where
  totalFiles := s.files.size
  totalChunks := s.chunks.length
  totalSymbols := s.symbols.size
  componentCount := s.countKind .component
  hookCount := s.countKind .hook
  functionCount := s.countKind .function
  totalComplexity := ((chunksOf s.files).map (·.metadata.complexity)).foldr (· + ·) 0
  fileTypes := s.files.keys.foldl (fun m path => m.alter (fileType path) fun n => n.getD 0 + 1) .empty
  largestFiles := s.fileSizes.take largestShown

/-- The statistics of a snapshot. -/
def stats (s : Snapshot) : IndexStats where
  version := s.version
  root := s.root
  totalChunks := s.chunks.length
  totalFiles := s.files.size

/-- The lines of a chunk that mention a name. -/
def referencesIn (name : Text) (c : Chunk) : List Reference :=
  (c.numberedLines.filter fun (_, line) => line.contains name).map fun (n, line) =>
    { path := c.path, line := n, context := line.trim }

/-- The lines that mention a name, chunk by chunk; an empty name is not mentioned anywhere. -/
def references (s : Snapshot) (name : Text) : List Reference :=
  if name.isEmpty then []
  else
    (s.chunks.filter fun c => c.content.contains name).flatMap fun c => referencesIn name c.toChunk

end Snapshot

end SourceIndex
