import SourceIndex.Proofs.Delta
import SourceIndex.Proofs.Run

/-!
# Failures stay with their files

A refresh looks up the content of every path that was added or updated and the record of every other
one. `refreshByDelta?` does so by look-ups that can fail, and never fails: it is `Snapshot.refresh`. So
for each file either the chunks that its chunker makes are stored, or the one chunk of unknown text if
there is no chunker, or it fails, or its chunks break the contract. What becomes of a file does not
depend on the chunkers of other files.
-/

namespace SourceIndex

/-! ## Cutting a file -/

/-- There is a chunker for the path, it cuts the content into these chunks, and they meet the
contract. -/
def Chunkers.Cuts (chunkers : Chunkers) (path content : Text) (chunks : List Chunk) : Prop :=
  ∃ chunker, chunkers.for? path = some chunker ∧ chunker.chunk? path content = some chunks ∧
    contractViolation? chunks content.lines.length = none

namespace FileRecord

variable {chunkers chunkers' : Chunkers} {path content : Text}

/-- The accepted chunks are those into which the chunkers cut the file. -/
theorem acceptedChunks?_eq_some_iff {chunks : List Chunk} :
    acceptedChunks? chunkers path content = some chunks ↔ chunkers.Cuts path content chunks := by
  simp only [acceptedChunks?, Option.bind_eq_bind, Option.bind_eq_some_iff, Chunkers.Cuts]
  constructor
  · rintro ⟨chunker, hchunker, cs, hcs, hkeep⟩
    split at hkeep
    · cases hkeep
    · rename_i hnone
      cases hkeep
      exact ⟨chunker, hchunker, hcs, Option.not_isSome_iff_eq_none.mp hnone⟩
  · rintro ⟨chunker, hchunker, hcs, hnone⟩
    exact ⟨chunker, hchunker, chunks, hcs, by rw [if_neg (by simp [hnone])]⟩

/-- A file is degraded if the chunkers cut it into nothing that is accepted. -/
theorem isDegraded_iff :
    isDegraded chunkers path content = true ↔ ∀ chunks, ¬ chunkers.Cuts path content chunks := by
  simp only [isDegraded, Option.isNone_iff_eq_none, Option.eq_none_iff_forall_ne_some, ne_eq,
    acceptedChunks?_eq_some_iff]

/-- The record of a file that is cut holds the chunks. -/
theorem ofContent_of_cuts {chunks : List Chunk} (h : chunkers.Cuts path content chunks) :
    ofContent chunkers path content = ofChunks path (fingerprint content) chunks := by
  rw [ofContent, acceptedChunks?_eq_some_iff.mpr h]
  rfl

/-- The record of a file that is not cut holds one chunk of unknown text. -/
theorem ofContent_of_not_cuts (h : ∀ chunks, ¬ chunkers.Cuts path content chunks) :
    ofContent chunkers path content =
      ofChunks path (fingerprint content) [.wholeFile path .unknown content] := by
  rw [ofContent, Option.isNone_iff_eq_none.mp (isDegraded_iff.mpr h)]
  rfl

/-- Chunkers that cut a file in the same way make the same record of it. -/
theorem ofContent_congr
    (h : ∀ chunks, chunkers.Cuts path content chunks ↔ chunkers'.Cuts path content chunks) :
    ofContent chunkers path content = ofContent chunkers' path content := by
  have hsame : acceptedChunks? chunkers path content = acceptedChunks? chunkers' path content := by
    refine Option.ext fun chunks => ?_
    rw [acceptedChunks?_eq_some_iff, acceptedChunks?_eq_some_iff]
    exact h chunks
  rw [ofContent, ofContent, hsame]

/-- The record of a file that is cut anew, and whether the file is degraded. -/
def recut (chunkers : Chunkers) (path hash content : Text) : FileRecord × Bool :=
  match acceptedChunks? chunkers path content with
  | some chunks => (ofChunks path hash chunks, false)
  | none => (ofChunks path hash [.wholeFile path .unknown content], true)

theorem recut_fingerprint (chunkers : Chunkers) (path content : Text) :
    recut chunkers path (fingerprint content) content =
      (ofContent chunkers path content, isDegraded chunkers path content) := by
  rw [recut, ofContent, isDegraded]
  cases acceptedChunks? chunkers path content <;> rfl

end FileRecord

/-! ## Refreshing by look-ups -/

namespace Project

/-- The contents of those entries whose paths have fingerprints; a path that is set again keeps its
place. -/
def contentsOf (files : List ProjectEntry) (hashes : OrderedMap Text Text) : OrderedMap Text Text :=
  (files.filter fun f => f.isIndexable && hashes.contains f.path).foldl
    (fun m f => m.insert f.path f.content) .empty

/-- The content of a path that has a fingerprint is that of its last indexable entry. -/
theorem get?_contentsOf {hashes : OrderedMap Text Text} {path : Text} (h : path ∈ hashes.keys)
    (files : List ProjectEntry) : (contentsOf files hashes).get? path = lastContent? files path := by
  rw [contentsOf, get?_foldl OrderedMap.get?_insert, List.filter_filter, lastContent?]
  have hsame : (files.filter fun f => f.path == path && (f.isIndexable && hashes.contains f.path)) =
      files.filter fun f => f.isIndexable && f.path == path := by
    refine List.filter_congr fun f _ => ?_
    by_cases hpath : f.path = path
    · rw [hpath, OrderedMap.contains_iff.mpr h, Bool.and_true, Bool.and_comm]
    · rw [beq_false_of_ne hpath, Bool.false_and, Bool.and_false]
  rw [hsame]
  exact Option.or_none

end Project

/-- Steps that all succeed give all their results. -/
theorem mapM_eq_some_map {α β : Type} {f : α → Option β} {g : α → β} {l : List α}
    (h : ∀ a ∈ l, f a = some (g a)) : l.mapM f = some (l.map g) := by
  induction l with
  | nil => rfl
  | cons a rest ih =>
    rw [List.mapM_cons, h a List.mem_cons_self, ih fun b hb => h b (List.mem_cons_of_mem _ hb)]
    rfl

namespace Snapshot

/-- The record of a path after a refresh, and whether its file was degraded in it. A path that was
added or updated is cut anew from its content, any other keeps its record; there is none if the
content or the record is missing. -/
def lookUp? (s : Snapshot) (chunkers : Chunkers) (delta : Delta) (contents : OrderedMap Text Text)
    (path hash : Text) : Option (FileRecord × Bool) :=
  if path ∈ delta.added ∨ path ∈ delta.updated then
    (contents.get? path).map (FileRecord.recut chunkers path hash)
  else (s.files.get? path).map (·, false)

/-- Brings a snapshot up to date with a project by its delta, unless a look-up fails. -/
def refreshByDelta? (s : Snapshot) (chunkers : Chunkers) (files : List ProjectEntry) :
    Option Refresh :=
  let hashes := Project.fingerprints files
  if Fingerprint.root hashes.values = s.root then some { snapshot := s, skipped := true }
  else
    let delta := Delta.between s.fingerprints hashes
    let contents := Project.contentsOf files hashes
    (hashes.entries.mapM fun entry =>
      (s.lookUp? chunkers delta contents entry.1 entry.2).map (entry.1, ·)).map fun found =>
        { snapshot := .ofFiles (.ofList (found.map fun e => (e.1, e.2.1))) (s.version + 1)
          added := delta.added
          updated := delta.updated
          removed := delta.removed
          degraded := (found.filter (·.2.2)).map Prod.fst
          skipped := false }

section LookUp

variable {s : Snapshot} {files : List ProjectEntry} {path content : Text}

/-- A snapshot holds the current record of a path if the path has the fingerprint of the content. -/
theorem currentRecord?_eq_none_iff :
    s.currentRecord? path content = none ↔ (path, fingerprint content) ∉ s.fingerprints.entries := by
  rw [← OrderedMap.get?_eq_some_iff, fingerprints, OrderedMap.get?_mapValues, currentRecord?,
    Option.filter_eq_none_iff]
  cases s.files.get? path with
  | none => simp
  | some record => simp

/-- A path of a project was added or updated if the snapshot does not hold its current record. -/
theorem mem_added_or_updated_iff (h : (path, content) ∈ (Project.contents files).entries) :
    let delta := Delta.between s.fingerprints (Project.fingerprints files)
    path ∈ delta.added ∨ path ∈ delta.updated ↔ s.currentRecord? path content = none := by
  rw [currentRecord?_eq_none_iff]
  exact Delta.mem_added_or_updated_iff (List.mem_map.mpr ⟨(path, content), h, rfl⟩)

/-- A path of a project is unchanged if the snapshot holds its current record. -/
theorem mem_unchanged_iff (h : (path, content) ∈ (Project.contents files).entries) :
    path ∈ (Delta.between s.fingerprints (Project.fingerprints files)).unchanged ↔
      s.currentRecord? path content ≠ none := by
  rw [ne_eq, currentRecord?_eq_none_iff, not_not]
  exact Delta.mem_unchanged_iff (List.mem_map.mpr ⟨(path, content), h, rfl⟩)

/-- The look-ups of a refresh find the record of every path. -/
theorem lookUp?_eq_some (chunkers : Chunkers)
    (h : (path, content) ∈ (Project.contents files).entries) :
    let hashes := Project.fingerprints files
    s.lookUp? chunkers (Delta.between s.fingerprints hashes) (Project.contentsOf files hashes) path
        (fingerprint content) =
      some ((s.currentRecord? path content).getD (.ofContent chunkers path content),
        (s.currentRecord? path content).isNone && FileRecord.isDegraded chunkers path content) := by
  intro hashes
  have hkey : path ∈ hashes.keys := by
    rw [Project.keys_fingerprints]
    exact OrderedMap.mem_keys.mpr ⟨content, h⟩
  have hcontent : (Project.contentsOf files hashes).get? path = some content := by
    rw [Project.get?_contentsOf hkey, ← Project.get?_contents]
    exact OrderedMap.get?_eq_some_iff.mpr h
  rw [lookUp?]
  cases hrecord : s.currentRecord? path content with
  | none =>
    rw [if_pos ((mem_added_or_updated_iff h).mpr hrecord), hcontent, Option.map_some,
      FileRecord.recut_fingerprint]
    rfl
  | some record =>
    -- the record of a path that is neither new nor updated is kept
    rw [if_neg fun hchanged => by
      rw [(mem_added_or_updated_iff h).mp hchanged] at hrecord
      cases hrecord]
    rw [OrderedMap.get?_eq_some_iff.mpr (currentRecord?_eq_some hrecord).1]
    rfl

end LookUp

/-- A refresh by look-ups never fails, and does what a refresh does. -/
theorem refreshByDelta?_eq_some (s : Snapshot) (chunkers : Chunkers) (files : List ProjectEntry) :
    s.refreshByDelta? chunkers files = some (s.refresh chunkers files) := by
  rw [refreshByDelta?, refresh]
  dsimp only
  split
  · rfl
  · have hfound : ((Project.fingerprints files).entries.mapM fun entry =>
        (s.lookUp? chunkers (Delta.between s.fingerprints (Project.fingerprints files))
          (Project.contentsOf files (Project.fingerprints files)) entry.1 entry.2).map
            (entry.1, ·)) =
        some ((Project.contents files).entries.map fun entry =>
          (entry.1, (s.currentRecord? entry.1 entry.2).getD (.ofContent chunkers entry.1 entry.2),
            (s.currentRecord? entry.1 entry.2).isNone &&
              FileRecord.isDegraded chunkers entry.1 entry.2)) := by
      rw [Project.fingerprints, OrderedMap.entries_mapValues, List.mapM_map]
      refine mapM_eq_some_map fun entry hentry => ?_
      exact congrArg (Option.map (entry.1, ·)) (lookUp?_eq_some chunkers hentry)
    have hrecords : OrderedMap.ofList ((Project.contents files).entries.map fun entry =>
        (entry.1, (s.currentRecord? entry.1 entry.2).getD (.ofContent chunkers entry.1 entry.2))) =
        s.recordsFor chunkers (Project.contents files) := by
      ext1
      exact OrderedMap.entries_ofList (s.recordsFor chunkers (Project.contents files)).nodup
    rw [hfound, Option.map_some, List.map_map, List.filter_map, List.map_map, degradedIn, ← hrecords]
    rfl

/-- The degraded files of a refresh are in the order of the project. -/
theorem degradedIn_sublist (s : Snapshot) (chunkers : Chunkers) (contents : OrderedMap Text Text) :
    (s.degradedIn chunkers contents).Sublist contents.keys :=
  List.filter_sublist.map Prod.fst

/-- The degraded files of a refresh are those added or updated that no chunker cuts. -/
theorem mem_degradedIn_iff {s : Snapshot} {chunkers : Chunkers} {files : List ProjectEntry}
    {path : Text} :
    let delta := Delta.between s.fingerprints (Project.fingerprints files)
    path ∈ s.degradedIn chunkers (Project.contents files) ↔
      (path ∈ delta.added ∨ path ∈ delta.updated) ∧
        ∃ content, Project.lastContent? files path = some content ∧
          ∀ chunks, ¬ chunkers.Cuts path content chunks := by
  intro delta
  simp only [degradedIn, List.mem_map, List.mem_filter, Bool.and_eq_true,
    Option.isNone_iff_eq_none, FileRecord.isDegraded_iff, ← Project.get?_contents,
    OrderedMap.get?_eq_some_iff]
  constructor
  · rintro ⟨⟨_, content⟩, ⟨hentry, hnone, hcuts⟩, rfl⟩
    exact ⟨(mem_added_or_updated_iff hentry).mpr hnone, content, hentry, hcuts⟩
  · rintro ⟨hchanged, content, hentry, hcuts⟩
    exact ⟨(path, content), ⟨hentry, (mem_added_or_updated_iff hentry).mp hchanged, hcuts⟩, rfl⟩

end Snapshot

/-! ## Calls and runs -/

namespace Indexer

/-- The record of a path after a call that is not skipped. -/
theorem get?_files_index {x : Indexer} {files : List ProjectEntry} (h : x.skips files = false)
    (path : Text) :
    (x.index files).1.snapshot.files.get? path =
      (Project.lastContent? files path).map fun content =>
        (x.snapshot.currentRecord? path content).getD (.ofContent x.chunkers path content) := by
  rw [snapshot_index_of_not_skips h, ← Project.get?_contents]
  exact OrderedMap.get?_mapValues _ _ _

/-- A current path with a given change has a content. -/
theorem exists_content_of_mem_pathsWith {previous : OrderedMap Text Text}
    {files : List ProjectEntry} {path : Text} {c : Delta.Change}
    (h : path ∈ Delta.pathsWith previous (Project.fingerprints files) c) :
    ∃ content, (path, content) ∈ (Project.contents files).entries := by
  have hkey := (Delta.pathsWith_sublist c).subset h
  rw [Project.keys_fingerprints] at hkey
  exact OrderedMap.mem_keys.mp hkey

/-- A path that was added or updated has the record of its last content. -/
theorem get?_files_index_of_changed {x : Indexer} {files : List ProjectEntry} {path : Text}
    (hskip : x.skips files = false)
    (h : let delta := Delta.between x.snapshot.fingerprints (Project.fingerprints files)
      path ∈ delta.added ∨ path ∈ delta.updated) :
    ∃ content, Project.lastContent? files path = some content ∧
      (x.index files).1.snapshot.files.get? path =
        some (.ofContent x.chunkers path content) := by
  obtain ⟨content, hentry⟩ : ∃ content, (path, content) ∈ (Project.contents files).entries := by
    rcases h with h | h
    · exact exists_content_of_mem_pathsWith h
    · exact exists_content_of_mem_pathsWith h
  have hlast : Project.lastContent? files path = some content := by
    rw [← Project.get?_contents]
    exact OrderedMap.get?_eq_some_iff.mpr hentry
  refine ⟨content, hlast, ?_⟩
  rw [get?_files_index hskip, hlast, Option.map_some,
    (Snapshot.mem_added_or_updated_iff hentry).mp h]
  rfl

/-- An unchanged path has the record that it had before, and is not degraded. -/
theorem get?_files_index_of_unchanged {x : Indexer} {files : List ProjectEntry} {path : Text}
    (hskip : x.skips files = false)
    (h : path ∈ (Delta.between x.snapshot.fingerprints (Project.fingerprints files)).unchanged) :
    path ∉ x.snapshot.degradedIn x.chunkers (Project.contents files) ∧
      ∃ record, x.snapshot.files.get? path = some record ∧
        (x.index files).1.snapshot.files.get? path = some record := by
  obtain ⟨content, hentry⟩ := exists_content_of_mem_pathsWith h
  have hkept := (Snapshot.mem_unchanged_iff hentry).mp h
  constructor
  · intro hdegraded
    have hchanged := (Snapshot.mem_degradedIn_iff.mp hdegraded).1
    exact hkept ((Snapshot.mem_added_or_updated_iff hentry).mp hchanged)
  · obtain ⟨record, hrecord⟩ := Option.ne_none_iff_exists'.mp hkept
    refine ⟨record, OrderedMap.get?_eq_some_iff.mpr (Snapshot.currentRecord?_eq_some hrecord).1, ?_⟩
    rw [get?_files_index hskip, ← Project.get?_contents, OrderedMap.get?_eq_some_iff.mpr hentry,
      Option.map_some, hrecord]
    rfl

/-- Indexers with the same root and the same record of a path, whose chunkers cut that path in the same
way, have the same record of it after every run. -/
theorem get?_files_run_congr {x y : Indexer} {path : Text}
    (hcuts : ∀ content chunks,
      x.chunkers.Cuts path content chunks ↔ y.chunkers.Cuts path content chunks)
    (hroot : x.snapshot.root = y.snapshot.root)
    (hfile : x.snapshot.files.get? path = y.snapshot.files.get? path)
    (projects : List (List ProjectEntry)) :
    (x.run projects).snapshot.files.get? path = (y.run projects).snapshot.files.get? path := by
  induction projects generalizing x y with
  | nil => exact hfile
  | cons files rest ih =>
    -- the root alone decides whether a call is skipped
    have hskip : x.skips files = y.skips files := by
      rw [Bool.eq_iff_iff, skips_iff, skips_iff, hroot]
    have hnext : (x.index files).1.snapshot.files.get? path =
        (y.index files).1.snapshot.files.get? path := by
      cases hx : x.skips files with
      | true => rwa [index_of_skips hx, index_of_skips (hskip ▸ hx)]
      | false =>
        rw [get?_files_index hx, get?_files_index (hskip ▸ hx)]
        congr 1
        funext content
        rw [Snapshot.currentRecord?, Snapshot.currentRecord?, hfile,
          FileRecord.ofContent_congr (hcuts content)]
    exact ih hcuts (by rw [root_index, root_index]) hnext

/-- Failures stay with their files. Whatever an indexer has stored and whatever its chunkers do, a
refresh by look-ups that can fail does not fail. If the call is not skipped, then
* the stored record of a path that was added or updated holds the chunks of its last indexable content
  if a chunker is found, does not fail and meets the contract, and else one chunk of unknown text,
* an unchanged path keeps its record and is not reported as degraded, even if it was before,
* the event names as degraded the paths that were not cut, in the order of the project.
Chunkers that differ on other paths only lead to the same record of a path after every run. A chunker
whose test of a path fails counts as one that takes the path and fails to cut it. -/
theorem index_isolates (x : Indexer) (files : List ProjectEntry) :
    x.snapshot.refreshByDelta? x.chunkers files = some (x.snapshot.refresh x.chunkers files) ∧
    (x.skips files = false →
      let delta := Delta.between x.snapshot.fingerprints (Project.fingerprints files)
      let stored := (x.index files).1.snapshot.files
      (∀ path, path ∈ delta.added ∨ path ∈ delta.updated →
        ∃ content, Project.lastContent? files path = some content ∧
          (∀ chunks, x.chunkers.Cuts path content chunks →
            stored.get? path = some (.ofChunks path (fingerprint content) chunks)) ∧
          ((∀ chunks, ¬ x.chunkers.Cuts path content chunks) →
            stored.get? path = some (.ofChunks path (fingerprint content)
              [.wholeFile path .unknown content]))) ∧
      ∃ degraded : List Text,
        Json.field? (x.index files).2.2.metadata "degraded_files".toList =
          some (.arr (degraded.map .str)) ∧
        degraded.Sublist (Project.fingerprints files).keys ∧
        (∀ path, path ∈ degraded ↔ (path ∈ delta.added ∨ path ∈ delta.updated) ∧
          ∃ content, Project.lastContent? files path = some content ∧
            ∀ chunks, ¬ x.chunkers.Cuts path content chunks) ∧
        ∀ path ∈ delta.unchanged, path ∉ degraded ∧
          ∃ record, x.snapshot.files.get? path = some record ∧ stored.get? path = some record) ∧
    ∀ y : Indexer, y.snapshot = x.snapshot → ∀ path,
      (∀ content chunks,
        x.chunkers.Cuts path content chunks ↔ y.chunkers.Cuts path content chunks) →
      ∀ projects, (x.run projects).snapshot.files.get? path =
        (y.run projects).snapshot.files.get? path := by
  refine ⟨Snapshot.refreshByDelta?_eq_some _ _ _, fun hskip => ?_, fun y hy path hcuts => ?_⟩
  · intro delta stored
    refine ⟨fun path hpath => ?_, x.snapshot.degradedIn x.chunkers (Project.contents files),
      ?_, ?_, fun path => Snapshot.mem_degradedIn_iff,
      fun path hpath => get?_files_index_of_unchanged hskip hpath⟩
    · obtain ⟨content, hlast, hstored⟩ := get?_files_index_of_changed hskip hpath
      refine ⟨content, hlast, fun chunks hcuts => ?_, fun hcuts => ?_⟩
      · rw [← FileRecord.ofContent_of_cuts hcuts]
        exact hstored
      · rw [← FileRecord.ofContent_of_not_cuts hcuts]
        exact hstored
    · rw [index, refresh_of_not_skips hskip]
      rfl
    · rw [Project.keys_fingerprints]
      exact Snapshot.degradedIn_sublist _ _ _
  · exact get?_files_run_congr hcuts (by rw [hy]) (by rw [hy])

end Indexer

end SourceIndex
