import SourceIndex.Indexer
import SourceIndex.Proofs.Project

/-!
# Runs of an indexer

Only indexing changes an indexer, so its reachable states are those after a list of projects was
indexed one after the other. A call either is skipped and changes nothing, or it publishes the
records of the contents of its project; `shownAfter` is the project that was published last.
-/

namespace SourceIndex

/-! ## Records of a refresh -/

namespace Snapshot

/-- The record that a snapshot holds for a content is an entry with the fingerprint of the
content. -/
theorem currentRecord?_eq_some {s : Snapshot} {path content : Text} {record : FileRecord}
    (h : s.currentRecord? path content = some record) :
    (path, record) ∈ s.files.entries ∧ record.hash = fingerprint content := by
  obtain ⟨hget, hhash⟩ := Option.filter_eq_some_iff.mp h
  exact ⟨OrderedMap.get?_eq_some_iff.mp hget, by simpa using hhash⟩

/-- The fingerprints of the records of a refresh are those of the project. -/
theorem fingerprints_ofFiles (s : Snapshot) (chunkers : Chunkers) (files : List ProjectEntry)
    (version : Nat) :
    (ofFiles (s.recordsFor chunkers (Project.contents files)) version).fingerprints =
      Project.fingerprints files := by
  show ((s.recordsFor chunkers (Project.contents files)).mapValues fun _ f => f.hash) = _
  rw [recordsFor, OrderedMap.mapValues_mapValues]
  refine OrderedMap.mapValues_congr fun ⟨path, content⟩ _ => ?_
  cases hkept : s.currentRecord? path content with
  | none => simp [FileRecord.ofContent, FileRecord.ofChunks]
  | some record => simpa using (currentRecord?_eq_some hkept).2

/-- The root of a snapshot that was computed from records. -/
theorem root_ofFiles (files : OrderedMap Text FileRecord) (version : Nat) :
    (ofFiles files version).root = Fingerprint.root (ofFiles files version).fingerprints.values := by
  simp [ofFiles, fingerprints, OrderedMap.values, Function.comp_def]

end Snapshot

/-! ## Calls and runs -/

namespace Indexer

/-- An indexer that has not indexed anything. -/
def fresh (settings : Settings) (chunkers : Chunkers) : Indexer where
  settings := settings
  chunkers := chunkers

/-- The indexer after projects were indexed one after the other. -/
def run (x : Indexer) (projects : List (List ProjectEntry)) : Indexer :=
  projects.foldl (fun x files => (x.index files).1) x

/-- Whether indexing a project is skipped. -/
def skips (x : Indexer) (files : List ProjectEntry) : Bool :=
  (x.index files).2.1.skipped

/-- The project of the last call that was not skipped, or `shown` if all calls were. -/
def shownAfter (x : Indexer) (shown : List ProjectEntry) :
    List (List ProjectEntry) → List ProjectEntry
  | [] => shown
  | files :: rest => (x.index files).1.shownAfter (if x.skips files then shown else files) rest

/-- Indexing keeps the chunkers. -/
theorem chunkers_run (x : Indexer) (projects : List (List ProjectEntry)) :
    (x.run projects).chunkers = x.chunkers := by
  induction projects generalizing x with
  | nil => rfl
  | cons files rest ih => exact ih _

/-- A call is skipped exactly if the root of the project is that of the snapshot. -/
theorem skips_iff {x : Indexer} {files : List ProjectEntry} :
    x.skips files = true ↔
      Fingerprint.root (Project.fingerprints files).values = x.snapshot.root := by
  unfold skips index Snapshot.refresh
  dsimp only
  split <;> simp_all [Refresh.summary]

/-- A skipped call does nothing. -/
theorem refresh_of_skips {x : Indexer} {files : List ProjectEntry} (h : x.skips files = true) :
    x.snapshot.refresh x.chunkers files = { snapshot := x.snapshot, skipped := true } := by
  rw [skips_iff] at h
  simp [Snapshot.refresh, h]

/-- What a call that is not skipped does. -/
theorem refresh_of_not_skips {x : Indexer} {files : List ProjectEntry} (h : x.skips files = false) :
    let contents := Project.contents files
    let delta := Delta.between x.snapshot.fingerprints (Project.fingerprints files)
    x.snapshot.refresh x.chunkers files =
      { snapshot := .ofFiles (x.snapshot.recordsFor x.chunkers contents) (x.snapshot.version + 1)
        added := delta.added
        updated := delta.updated
        removed := delta.removed
        degraded := x.snapshot.degradedIn x.chunkers contents
        skipped := false } := by
  rw [← Bool.not_eq_true, skips_iff] at h
  simp [Snapshot.refresh, h]

/-- A skipped call changes nothing. -/
theorem index_of_skips {x : Indexer} {files : List ProjectEntry} (h : x.skips files = true) :
    (x.index files).1 = x := by
  simp [index, refresh_of_skips h]

/-- A call that is not skipped publishes the records of the contents of the project. -/
theorem snapshot_index_of_not_skips {x : Indexer} {files : List ProjectEntry}
    (h : x.skips files = false) :
    (x.index files).1.snapshot =
      .ofFiles (x.snapshot.recordsFor x.chunkers (Project.contents files))
        (x.snapshot.version + 1) := by
  simp [index, refresh_of_not_skips h]

/-- Nothing is skipped before the first version. -/
theorem not_skips_of_root_eq_nil {x : Indexer} (h : x.snapshot.root = [])
    (files : List ProjectEntry) : x.skips files = false := by
  rw [← Bool.not_eq_true, skips_iff, h]
  -- a root has eight digits, the root before the first version has none
  intro hroot
  have hlen := Project.length_root_fingerprints files
  rw [hroot] at hlen
  simp at hlen

/-- After a call the snapshot has the root of the project, whether or not the call was skipped. -/
theorem root_index (x : Indexer) (files : List ProjectEntry) :
    (x.index files).1.snapshot.root = Fingerprint.root (Project.fingerprints files).values := by
  cases hskip : x.skips files with
  | true => rw [index_of_skips hskip, skips_iff.mp hskip]
  | false =>
    rw [snapshot_index_of_not_skips hskip, Snapshot.root_ofFiles, Snapshot.fingerprints_ofFiles]

/-- What every call keeps of an indexer and the project that it shows holds after a run. -/
theorem run_induction {motive : Indexer → List ProjectEntry → Prop}
    (index : ∀ x shown files, motive x shown →
      motive (x.index files).1 (if x.skips files then shown else files))
    (x : Indexer) (shown : List ProjectEntry) (projects : List (List ProjectEntry))
    (h : motive x shown) : motive (x.run projects) (x.shownAfter shown projects) := by
  induction projects generalizing x shown with
  | nil => exact h
  | cons files rest ih => exact ih _ _ (index x shown files h)

/-- The snapshot has the fingerprints of a project, and their root unless nothing was indexed. -/
def Shows (x : Indexer) (shown : List ProjectEntry) : Prop :=
  x.snapshot.fingerprints = Project.fingerprints shown ∧
    (x.snapshot.root = [] ∨ x.snapshot.root = Fingerprint.root x.snapshot.fingerprints.values)

/-- After a run the snapshot shows the project of the last call that was not skipped. -/
theorem shows_run (settings : Settings) (chunkers : Chunkers)
    (projects : List (List ProjectEntry)) :
    ((fresh settings chunkers).run projects).Shows
      ((fresh settings chunkers).shownAfter [] projects) := by
  refine run_induction ?_ _ _ projects ⟨rfl, .inl rfl⟩
  intro x shown files h
  cases hskip : x.skips files with
  | true => rwa [index_of_skips hskip]
  | false =>
    rw [Shows, snapshot_index_of_not_skips hskip]
    exact ⟨Snapshot.fingerprints_ofFiles _ _ _ _, .inr (Snapshot.root_ofFiles _ _)⟩

/-- A call is skipped only if the project and the one that the snapshot shows have one root. -/
theorem root_eq_of_skips {x : Indexer} {shown files : List ProjectEntry} (hshows : x.Shows shown)
    (h : x.skips files = true) :
    Fingerprint.root (Project.fingerprints shown).values =
      Fingerprint.root (Project.fingerprints files).values := by
  obtain ⟨hfingerprints, hroot⟩ := hshows
  rw [← hfingerprints, skips_iff.mp h]
  rcases hroot with hnil | hroot
  · rw [not_skips_of_root_eq_nil hnil] at h
    cases h
  · exact hroot.symm

end Indexer

end SourceIndex
