import SourceIndex.Snapshot.Basic

/-!
# Refreshing a snapshot

A refresh brings a snapshot up to date with a project. If the root of the fingerprints has not
changed the snapshot stays as it is. Otherwise files with the fingerprint that they had before
keep their records, all others are cut into chunks anew, and everything else is computed from the
records. A file whose chunker is missing, fails or breaks the chunk contract is degraded: it
becomes one chunk of unknown text.
-/

namespace SourceIndex

namespace FileRecord

/-- The chunks of a file as its chunker cuts it, unless there is none or it fails or breaks the
contract. -/
def acceptedChunks? (chunkers : Chunkers) (path content : Text) : Option (List Chunk) := do
  let chunker ← chunkers.for? path
  let chunks ← chunker.chunk? path content
  if (contractViolation? chunks content.lines.length).isSome then none else some chunks

/-- The record of a file with the given chunks. -/
def ofChunks (path hash : Text) (chunks : List Chunk) : FileRecord where
  path := path
  hash := hash
  chunks := chunks
  symbols := declaredSymbols chunks

/-- The record of a file with a content. -/
def ofContent (chunkers : Chunkers) (path content : Text) : FileRecord :=
  ofChunks path (fingerprint content)
    ((acceptedChunks? chunkers path content).getD [.wholeFile path .unknown content])

/-- Whether a file is degraded. -/
def isDegraded (chunkers : Chunkers) (path content : Text) : Bool :=
  (acceptedChunks? chunkers path content).isNone

end FileRecord

/-- What a refresh did: the snapshot after it, the paths that were added, updated, removed and
degraded, and whether it was skipped since nothing had changed. -/
structure Refresh where
  snapshot : Snapshot
  added : List Text := []
  updated : List Text := []
  removed : List Text := []
  degraded : List Text := []
  skipped : Bool

namespace Snapshot

/-- The record that the snapshot holds for a path, if it is that of the given content. -/
def currentRecord? (s : Snapshot) (path content : Text) : Option FileRecord :=
  (s.files.get? path).filter fun f => f.hash == fingerprint content

/-- The records of the files of a project: those that the snapshot holds, and new ones. -/
def recordsFor (s : Snapshot) (chunkers : Chunkers) (contents : OrderedMap Text Text) :
    OrderedMap Text FileRecord :=
  contents.mapValues fun path content =>
    (s.currentRecord? path content).getD (.ofContent chunkers path content)

/-- The paths of the files of a project that have new records and are degraded. -/
def degradedIn (s : Snapshot) (chunkers : Chunkers) (contents : OrderedMap Text Text) :
    List Text :=
  (contents.entries.filter fun (path, content) =>
    (s.currentRecord? path content).isNone && FileRecord.isDegraded chunkers path content).map
      Prod.fst

/-- Brings a snapshot up to date with a project. -/
def refresh (s : Snapshot) (chunkers : Chunkers) (files : List ProjectEntry) : Refresh :=
  let hashes := Project.fingerprints files
  if Fingerprint.root hashes.values = s.root then { snapshot := s, skipped := true }
  else
    let contents := Project.contents files
    let delta := Delta.between s.fingerprints hashes
    { snapshot := .ofFiles (s.recordsFor chunkers contents) (s.version + 1)
      added := delta.added
      updated := delta.updated
      removed := delta.removed
      degraded := s.degradedIn chunkers contents
      skipped := false }

end Snapshot

/-- The counts that a refresh reports. The changed files are those added and those updated. -/
structure Refresh.Summary where
  totalChunks : Nat
  totalSymbols : Nat
  changedFiles : Nat
  addedFiles : Nat
  updatedFiles : Nat
  removedFiles : Nat
  root : Text
  version : Nat
  skipped : Bool
  deriving DecidableEq, Repr

/-- The counts of a refresh. -/
def Refresh.summary (r : Refresh) : Refresh.Summary where
  totalChunks := r.snapshot.chunks.length
  totalSymbols := r.snapshot.symbols.size
  changedFiles := r.added.length + r.updated.length
  addedFiles := r.added.length
  updatedFiles := r.updated.length
  removedFiles := r.removed.length
  root := r.snapshot.root
  version := r.snapshot.version
  skipped := r.skipped

end SourceIndex
