import SourceIndex.Fingerprint
import SourceIndex.OrderedMap

/-!
# Project files and changes

A project is a list of entries in the order in which they are supplied. Only files with a content
are indexed, and of several entries with one path the last such entry counts, in its own place. A
delta tells how the fingerprints of two states of a project differ.
-/

namespace SourceIndex

/-- An entry of a project. -/
structure ProjectEntry where
  path : Text
  content : Text
  isFile : Bool := true
  deriving DecidableEq, Repr

/-- Whether an entry is indexed. -/
def ProjectEntry.isIndexable (f : ProjectEntry) : Bool :=
  f.isFile && !f.content.isEmpty

namespace Project

/-- The contents of the indexed files of a project, by their paths, in order. -/
def contents (files : List ProjectEntry) : OrderedMap Text Text :=
  (files.filter (·.isIndexable)).foldl (fun m f => m.insertLast f.path f.content) .empty

/-- The fingerprints of the indexed files of a project, by their paths, in order. -/
def fingerprints (files : List ProjectEntry) : OrderedMap Text Text :=
  (contents files).mapValues fun _ content => fingerprint content

end Project

/-- How two states of a project differ. A path is updated if its fingerprints differ. -/
structure Delta where
  added : List Text
  updated : List Text
  unchanged : List Text
  removed : List Text
  deriving DecidableEq, Repr

namespace Delta

/-- What became of the path of a current file: it is new, or has another fingerprint than before, or
the same. -/
inductive Change where
  | added
  | updated
  | unchanged
  deriving DecidableEq, Repr

/-- What became of a path with a fingerprint. -/
def change (previous : OrderedMap Text Text) (path hash : Text) : Change :=
  match previous.get? path with
  | none => .added
  | some old => if old = hash then .unchanged else .updated

/-- The paths of the current state with a given change, in the order of that state. -/
def pathsWith (previous current : OrderedMap Text Text) (c : Change) : List Text :=
  (current.entries.filter fun entry => change previous entry.1 entry.2 == c).map Prod.fst

/-- The difference between two states. -/
def between (previous current : OrderedMap Text Text) : Delta where
  added := pathsWith previous current .added
  updated := pathsWith previous current .updated
  unchanged := pathsWith previous current .unchanged
  removed := previous.keys.filter fun path => !current.contains path

end Delta

end SourceIndex
