import SourceIndex.Proofs.Isolation
import SourceIndex.Proofs.StableSort

/-!
# Paths that are supplied more than once

Fingerprints and contents are collected in two passes over the entries of a project. The first moves a
path that is set again to the end, the second leaves it in its place. Both keep the last indexable entry
of each path: an entry that is not indexable never counts, not even behind one that is. So a project is
indexed as if only these entries had been supplied.
-/

namespace SourceIndex

namespace Project

/-! ## The two passes -/

/-- One step of the pass that collects fingerprints. -/
def recordFingerprint (m : OrderedMap Text Text) (f : ProjectEntry) : OrderedMap Text Text :=
  if f.isIndexable then m.insertLast f.path (fingerprint f.content) else m

/-- The fingerprints that one pass over the entries collects. -/
def fingerprintPass (files : List ProjectEntry) : OrderedMap Text Text :=
  files.foldl recordFingerprint .empty

/-- An entry is indexable, and no later indexable entry has its path. -/
structure IsLast (files : List ProjectEntry) (position : Nat) (f : ProjectEntry) : Prop where
  entry : files[position]? = some f
  indexable : f.isIndexable = true
  notReplaced : ∀ later g, position < later → files[later]? = some g → g.isIndexable = true →
    g.path ≠ f.path

/-- The last indexable entries of all paths, with their positions. -/
def lastEntries (files : List ProjectEntry) : List (ProjectEntry × Nat) :=
  files.zipIdx.filter fun e =>
    e.1.isIndexable && !(files.drop (e.2 + 1)).any fun g => g.isIndexable && g.path == e.1.path

/-- A project without the entries that do not count: those that are not indexable, and those that a later
indexable entry with the same path replaces. -/
def effective (files : List ProjectEntry) : List ProjectEntry :=
  (lastEntries files).map Prod.fst

/-! ## Last entries -/

/-- The last entries are listed with their positions. -/
theorem mem_lastEntries {files : List ProjectEntry} {f : ProjectEntry} {position : Nat} :
    (f, position) ∈ lastEntries files ↔ IsLast files position f := by
  have hlater : ((files.drop (position + 1)).any fun g => g.isIndexable && g.path == f.path) = false ↔
      ∀ later g, position < later → files[later]? = some g → g.isIndexable = true →
        g.path ≠ f.path := by
    rw [List.any_eq_false]
    constructor
    · intro h later g hlt hget hindexable hpath
      refine h g (List.mem_iff_getElem?.mpr ⟨later - (position + 1), ?_⟩) (by simp [hindexable, hpath])
      rw [List.getElem?_drop, Nat.add_sub_cancel' hlt, hget]
    · intro h g hg hsame
      obtain ⟨offset, hoffset⟩ := List.mem_iff_getElem?.mp hg
      rw [List.getElem?_drop] at hoffset
      rw [Bool.and_eq_true, beq_iff_eq] at hsame
      exact h (position + 1 + offset) g (by omega) hoffset hsame.1 hsame.2
  rw [lastEntries, List.mem_filter, List.mem_zipIdx_iff_getElem?, Bool.and_eq_true, Bool.not_eq_true',
    hlater]
  exact ⟨fun ⟨hentry, hindexable, hlast⟩ => ⟨hentry, hindexable, hlast⟩,
    fun ⟨hentry, hindexable, hlast⟩ => ⟨hentry, hindexable, hlast⟩⟩

/-- A path has one last entry. -/
theorem IsLast.position_eq {files : List ProjectEntry} {i j : Nat} {f g : ProjectEntry}
    (hf : IsLast files i f) (hg : IsLast files j g) (hpath : f.path = g.path) : i = j := by
  rcases Nat.lt_trichotomy i j with hlt | rfl | hlt
  · exact absurd hpath.symm (hf.notReplaced j g hlt hg.entry hg.indexable)
  · rfl
  · exact absurd hpath (hg.notReplaced i f hlt hf.entry hf.indexable)

/-- The last entries are listed by their positions. -/
theorem pairwise_lastEntries (files : List ProjectEntry) :
    (lastEntries files).Pairwise fun e e' => e.2 < e'.2 :=
  (StableSort.pairwise_zipIdx files).filter _

/-- One more entry removes the last entry with its path and becomes the last entry itself, unless it is
not indexable. -/
theorem lastEntries_append_singleton (files : List ProjectEntry) (f : ProjectEntry) :
    lastEntries (files ++ [f]) =
      if f.isIndexable then
        (lastEntries files).filter (fun e => e.1.path ≠ f.path) ++ [(f, files.length)]
      else lastEntries files := by
  have hself : (files ++ [f]).drop (files.length + 1) = [] := List.drop_eq_nil_of_le (by simp)
  -- the new entry stands behind every other one
  have hothers : files.zipIdx.filter (fun e => e.1.isIndexable &&
      !((files ++ [f]).drop (e.2 + 1)).any fun g => g.isIndexable && g.path == e.1.path) =
      (lastEntries files).filter fun e => !(f.isIndexable && f.path == e.1.path) := by
    rw [lastEntries, List.filter_filter]
    refine List.filter_congr fun e he => ?_
    have hbehind : e.2 + 1 ≤ files.length := by
      have hlt := List.snd_lt_of_mem_zipIdx he
      omega
    rw [List.drop_append_of_le_length hbehind, List.any_append, Bool.not_or, List.any_cons,
      List.any_nil, Bool.or_false, ← Bool.and_assoc, Bool.and_comm]
  rw [lastEntries, List.zipIdx_append, List.filter_append, hothers, List.zipIdx_singleton,
    List.filter_singleton, Nat.zero_add, hself]
  cases hindexable : f.isIndexable with
  | true => simp [eq_comm, beq_eq_decide]
  | false => simp

/-! ## What the passes collect -/

/-- The pass over the fingerprints collects those of the last entries, in the order of these. -/
theorem entries_fingerprintPass (files : List ProjectEntry) :
    (fingerprintPass files).entries =
      (lastEntries files).map fun e => (e.1.path, fingerprint e.1.content) := by
  induction files using List.reverseRecOn with
  | nil => rfl
  | append_singleton files f ih =>
    rw [fingerprintPass, List.foldl_append, List.foldl_cons, List.foldl_nil, ← fingerprintPass,
      recordFingerprint, lastEntries_append_singleton]
    split
    · -- an older entry of the path is moved to the end
      rw [OrderedMap.entries_insertLast, ih, List.map_append, List.filter_map]
      rfl
    · exact ih

/-- The contents are those of the last entries, in the order of these. -/
theorem entries_contents_eq (files : List ProjectEntry) :
    (contents files).entries = (lastEntries files).map fun e => (e.1.path, e.1.content) := by
  induction files using List.reverseRecOn with
  | nil => rfl
  | append_singleton files f ih =>
    rw [contents, List.filter_append, List.foldl_append, ← contents, lastEntries_append_singleton]
    cases hindexable : f.isIndexable with
    | false =>
      rw [List.filter_singleton, hindexable]
      exact ih
    | true =>
      rw [List.filter_singleton, hindexable, if_pos rfl, cond_true, List.foldl_cons, List.foldl_nil,
        OrderedMap.entries_insertLast, ih, List.map_append, List.filter_map]
      rfl

/-- The pass over the entries collects the fingerprints of the contents. -/
theorem fingerprintPass_eq (files : List ProjectEntry) : fingerprintPass files = fingerprints files := by
  ext1
  rw [entries_fingerprintPass, fingerprints, OrderedMap.entries_mapValues, entries_contents_eq,
    List.map_map]
  rfl

/-- The paths are those of the last entries. -/
theorem keys_contents (files : List ProjectEntry) :
    (contents files).keys = (lastEntries files).map fun e => e.1.path := by
  rw [OrderedMap.keys, entries_contents_eq, List.map_map]
  rfl

/-- The entries that count are indexable. -/
theorem isIndexable_of_mem_effective {files : List ProjectEntry} {f : ProjectEntry}
    (h : f ∈ effective files) : f.isIndexable = true := by
  obtain ⟨⟨f, position⟩, hmem, rfl⟩ := List.mem_map.mp h
  exact (mem_lastEntries.mp hmem).indexable

/-- The entries that count have the contents of the project. -/
theorem contents_effective (files : List ProjectEntry) :
    contents (effective files) = contents files := by
  have hpaths : ((effective files).map (·.path)).Nodup := by
    rw [effective, List.map_map]
    have hkeys := (contents files).nodup_keys
    rwa [keys_contents] at hkeys
  ext1
  rw [entries_contents hpaths, List.filter_eq_self.mpr fun f hf => isIndexable_of_mem_effective hf,
    entries_contents_eq, effective, List.map_map]
  rfl

/-- The second pass gives each path with a fingerprint the content of that fingerprint, and no other
path a content. -/
theorem map_get?_contentsOf (files : List ProjectEntry) (path : Text) :
    ((contentsOf files (fingerprintPass files)).get? path).map fingerprint =
      (fingerprintPass files).get? path := by
  have hhash : (fingerprints files).get? path = (lastContent? files path).map fingerprint := by
    rw [fingerprints, OrderedMap.get?_mapValues, get?_contents]
  rw [fingerprintPass_eq]
  by_cases h : path ∈ (fingerprints files).keys
  · rw [get?_contentsOf h, hhash]
  · have hnone : ((files.filter fun f => f.isIndexable && (fingerprints files).contains f.path).filter
        fun f => f.path == path) = [] := by
      rw [List.filter_eq_nil_iff]
      intro f hf hpath
      rw [List.mem_filter, Bool.and_eq_true, OrderedMap.contains_iff, beq_iff_eq.mp hpath] at hf
      exact h hf.2.2
    rw [contentsOf, get?_foldl OrderedMap.get?_insert, hnone, OrderedMap.get?_eq_none_iff.mpr h]
    rfl

/-- The fingerprints are those of the last entries. -/
theorem mem_entries_fingerprintPass {files : List ProjectEntry} {path hash : Text} :
    (path, hash) ∈ (fingerprintPass files).entries ↔
      ∃ position f, IsLast files position f ∧ f.path = path ∧ fingerprint f.content = hash := by
  rw [entries_fingerprintPass, List.mem_map]
  constructor
  · rintro ⟨⟨f, position⟩, hlast, hentry⟩
    exact ⟨position, f, mem_lastEntries.mp hlast, congrArg Prod.fst hentry, congrArg Prod.snd hentry⟩
  · rintro ⟨position, f, hlast, rfl, rfl⟩
    exact ⟨(f, position), mem_lastEntries.mpr hlast, rfl⟩

/-- The paths with fingerprints are in the order of their last entries. -/
theorem pairwise_keys_fingerprintPass (files : List ProjectEntry) :
    (fingerprintPass files).keys.Pairwise fun path path' =>
      ∀ i f j g, IsLast files i f → f.path = path → IsLast files j g → g.path = path' → i < j := by
  rw [fingerprintPass_eq, keys_fingerprints, keys_contents, List.pairwise_map]
  refine (pairwise_lastEntries files).imp_of_mem fun {e e'} he he' hlt => ?_
  intro i f j g hf hpath hg hpath'
  rwa [hf.position_eq (mem_lastEntries.mp he) hpath, hg.position_eq (mem_lastEntries.mp he') hpath']

/-- The second pass finds the paths with fingerprints. -/
theorem mem_keys_contentsOf {files : List ProjectEntry} {path : Text} :
    path ∈ (contentsOf files (fingerprintPass files)).keys ↔
      path ∈ (fingerprintPass files).keys := by
  rw [← not_iff_not, ← OrderedMap.get?_eq_none_iff, ← OrderedMap.get?_eq_none_iff,
    ← map_get?_contentsOf, Option.map_eq_none_iff]

end Project

/-! ## Calls -/

namespace Snapshot

/-- A refresh reads nothing of a project but its contents. -/
theorem refresh_congr (s : Snapshot) (chunkers : Chunkers) {files files' : List ProjectEntry}
    (h : Project.contents files = Project.contents files') :
    s.refresh chunkers files = s.refresh chunkers files' := by
  unfold refresh Project.fingerprints
  rw [h]

end Snapshot

/-- Repeated paths and entries that are not indexable are resolved consistently. Of every list of entries,
the first pass collects one fingerprint for each path with an indexable entry, in the order of the last
such entries, each that of the content of the last one. The second pass, which keeps a path in its place,
finds contents for the same paths, and these have the fingerprints. So whatever an indexer has stored, it
makes the same of the list as of its entries that count, and so does a refresh that looks up the results
of the two passes. -/
theorem Project.resolves_repeated_paths (files : List ProjectEntry) :
    let hashes := fingerprintPass files
    let contents := contentsOf files hashes
    (hashes = fingerprints files ∧ hashes.keys.Nodup ∧
      (∀ path, path ∈ hashes.keys ↔ ∃ f ∈ files, f.isIndexable ∧ f.path = path) ∧
      (∀ path hash, (path, hash) ∈ hashes.entries ↔
        ∃ position f, IsLast files position f ∧ f.path = path ∧ fingerprint f.content = hash) ∧
      hashes.keys.Pairwise fun path path' =>
        ∀ i f j g, IsLast files i f → f.path = path → IsLast files j g → g.path = path' → i < j) ∧
    ((∀ path, path ∈ contents.keys ↔ path ∈ hashes.keys) ∧
      ∀ path, (contents.get? path).map fingerprint = hashes.get? path) ∧
    (effective files).Sublist files ∧
    (∀ f, f ∈ effective files ↔ ∃ position, IsLast files position f) ∧
    ∀ x : Indexer, x.index (effective files) = x.index files ∧
      x.snapshot.refreshByDelta? x.chunkers (effective files) =
        x.snapshot.refreshByDelta? x.chunkers files := by
  intro hashes contents
  refine ⟨⟨fingerprintPass_eq files, hashes.nodup_keys, fun path => ?_,
    fun path hash => mem_entries_fingerprintPass, pairwise_keys_fingerprintPass files⟩,
    ⟨fun path => mem_keys_contentsOf, map_get?_contentsOf files⟩, ?_, fun f => ?_, fun x => ?_⟩
  · rw [show hashes = fingerprints files from fingerprintPass_eq files, keys_fingerprints]
    exact mem_keys_contents
  · have hsublist := (List.filter_sublist (l := files.zipIdx) (p := fun e => e.1.isIndexable &&
      !(files.drop (e.2 + 1)).any fun g => g.isIndexable && g.path == e.1.path)).map Prod.fst
    rwa [List.zipIdx_map_fst] at hsublist
  · simp only [effective, List.mem_map, Prod.exists, exists_and_right, exists_eq_right,
      mem_lastEntries]
  · have hsame := x.snapshot.refresh_congr x.chunkers (contents_effective files)
    rw [Indexer.index, Indexer.index, Snapshot.refreshByDelta?_eq_some,
      Snapshot.refreshByDelta?_eq_some, hsame]
    exact ⟨rfl, rfl⟩

/-- An empty entry behind a file does not count, a later file with the path replaces the first one. -/
example :
    let entry (path content : String) : ProjectEntry :=
      { path := path.toList, content := content.toList }
    Project.effective [entry "a" "x", entry "b" "y", entry "b" "", entry "a" "z"] =
      [entry "b" "y", entry "a" "z"] := by
  decide

end SourceIndex
