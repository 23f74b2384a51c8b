import SourceIndex.Chunk.Contract

/-!
# Chunkers

A chunker cuts the files that it supports into chunks. It may fail on a file; the chunkers of this
library never do. Several chunkers are asked in order, and a last one takes what no other supports.
-/

namespace SourceIndex

/-- A way to cut files into chunks: the paths of the files that it takes, and the chunks of a file,
unless it fails on it. -/
structure Chunker where
  name : Text
  supports : Text → Bool
  chunk? : (path content : Text) → Option (List Chunk)

namespace Chunker

/-- The chunker that never fails, for files with one of the extensions; it leaves blank files
without chunks. -/
def ofExtensions (name : Text) (extensions : List Text)
    (chunks : (path content : Text) → List Chunk) : Chunker where
  name := name
  supports := Path.hasExtension extensions
  chunk? := fun path content => some (if content.isBlank then [] else chunks path content)

end Chunker

/-- The chunkers of an indexer: those asked in order, and the one for all other files. -/
structure Chunkers where
  ordered : List Chunker := []
  fallback : Option Chunker := none

/-- No chunker takes a path. -/
structure UnsupportedPath where
  path : Text
  deriving DecidableEq, Repr

/-- The message that reports a path that no chunker takes. -/
def UnsupportedPath.message (e : UnsupportedPath) : Text :=
  "No chunker supports path: ".toList ++ e.path

namespace Chunkers

/-- Adds a chunker that is asked after the others. -/
def add (cs : Chunkers) (c : Chunker) : Chunkers :=
  { cs with ordered := cs.ordered ++ [c] }

/-- Sets the chunker for files that no other one supports. -/
def withFallback (cs : Chunkers) (c : Chunker) : Chunkers :=
  { cs with fallback := some c }

/-- The chunker for a path: the first that supports it, or else the fallback. -/
def for? (cs : Chunkers) (path : Text) : Option Chunker :=
  (cs.ordered.find? (·.supports path)).or cs.fallback

/-- The chunker for a path, or the reason why there is none. -/
def chosen (cs : Chunkers) (path : Text) : Except UnsupportedPath Chunker :=
  match cs.for? path with
  | some c => .ok c
  | none => .error ⟨path⟩

/-- The names of the chunkers in the order in which they are asked, the fallback last. -/
def names (cs : Chunkers) : List Text :=
  (cs.ordered ++ cs.fallback.toList).map (·.name)

end Chunkers

end SourceIndex
