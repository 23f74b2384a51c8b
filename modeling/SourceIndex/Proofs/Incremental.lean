import SourceIndex.Proofs.Run

/-!
# Incremental indexing equals indexing from scratch

A record that a refresh keeps was made from some content of the same path with the same fingerprint.
If the fingerprints of all contents of one path differ, that content is the current one, so the
records of a refresh do not depend on the snapshot that it starts from. Everything else in a snapshot
is computed from the records: `index_eq_index_fresh` says that a run of any length publishes what a
single call on a new indexer publishes.
-/

namespace SourceIndex

namespace Project

/-- Different contents of one path have different fingerprints. -/
def Distinguished (files : List ProjectEntry) : Prop :=
  ∀ f ∈ files, ∀ g ∈ files, f.path = g.path → fingerprint f.content = fingerprint g.content →
    f.content = g.content

instance (files : List ProjectEntry) : Decidable (Distinguished files) :=
  inferInstanceAs (Decidable (∀ f ∈ files, ∀ g ∈ files, f.path = g.path →
    fingerprint f.content = fingerprint g.content → f.content = g.content))

theorem Distinguished.mono {files more : List ProjectEntry} (h : Distinguished more)
    (hs : files ⊆ more) : Distinguished files :=
  fun f hf g hg => h f (hs hf) g (hs hg)

end Project

namespace Snapshot

/-- Every record was made from a supplied content of its path. -/
def RecordsFrom (chunkers : Chunkers) (supplied : List ProjectEntry) (s : Snapshot) : Prop :=
  ∀ entry ∈ s.files.entries, ∃ f ∈ supplied,
    f.isIndexable ∧ f.path = entry.1 ∧ entry.2 = .ofContent chunkers f.path f.content

theorem RecordsFrom.mono {chunkers : Chunkers} {supplied more : List ProjectEntry} {s : Snapshot}
    (h : s.RecordsFrom chunkers supplied) (hs : supplied ⊆ more) : s.RecordsFrom chunkers more := by
  intro entry hentry
  obtain ⟨f, hf, hrecord⟩ := h entry hentry
  exact ⟨f, hs hf, hrecord⟩

/-- A new record was made from the content, and a kept one from a supplied content of its path. -/
theorem recordsFrom_ofFiles {chunkers : Chunkers} {supplied : List ProjectEntry} {s : Snapshot}
    (h : s.RecordsFrom chunkers supplied) (files : List ProjectEntry) (version : Nat) :
    (ofFiles (s.recordsFor chunkers (Project.contents files)) version).RecordsFrom chunkers
      (supplied ++ files) := by
  intro entry hentry
  obtain ⟨⟨path, content⟩, hcontent, rfl⟩ := List.mem_map.mp hentry
  cases hkept : s.currentRecord? path content with
  | none =>
    obtain ⟨f, hf, hindex, rfl, rfl⟩ := Project.exists_of_mem_contents hcontent
    exact ⟨f, List.mem_append_right _ hf, hindex, rfl, by simp [hkept]⟩
  | some record =>
    obtain ⟨f, hf, hindex, hpath, hrecord⟩ := h _ (currentRecord?_eq_some hkept).1
    exact ⟨f, List.mem_append_left _ hf, hindex, hpath, by simpa [hkept] using hrecord⟩

/-- If fingerprints distinguish the contents of every path, the records of a refresh are those of the
current contents. -/
theorem recordsFor_eq {chunkers : Chunkers} {supplied files : List ProjectEntry} {s : Snapshot}
    (h : s.RecordsFrom chunkers supplied) (hd : Project.Distinguished (supplied ++ files)) :
    s.recordsFor chunkers (Project.contents files) =
      (Project.contents files).mapValues (.ofContent chunkers) := by
  refine OrderedMap.mapValues_congr fun ⟨path, content⟩ hcontent => ?_
  cases hkept : s.currentRecord? path content with
  | none => rfl
  | some record =>
    -- a kept record belongs to a content with the fingerprint of the current one
    obtain ⟨hmem, hhash⟩ := currentRecord?_eq_some hkept
    obtain ⟨f, hf, -, hpath, hrecord : record = .ofContent chunkers f.path f.content⟩ := h _ hmem
    obtain ⟨g, hg, -, hgpath, hgcontent⟩ := Project.exists_of_mem_contents hcontent
    have hsame : f.content = g.content := by
      refine hd f (List.mem_append_left _ hf) g (List.mem_append_right _ hg) (hpath.trans hgpath.symm)
        ?_
      rw [hgcontent, ← hhash, hrecord]
      rfl
    calc record = .ofContent chunkers f.path f.content := hrecord
      _ = .ofContent chunkers path content := by rw [hpath, hsame, hgcontent]

end Snapshot

namespace Indexer

/-- A call keeps the records of supplied contents. -/
theorem recordsFrom_index {x : Indexer} {supplied : List ProjectEntry}
    (h : x.snapshot.RecordsFrom x.chunkers supplied) (files : List ProjectEntry) :
    (x.index files).1.snapshot.RecordsFrom x.chunkers (supplied ++ files) := by
  cases hskip : x.skips files with
  | true =>
    rw [index_of_skips hskip]
    exact h.mono (List.subset_append_left _ _)
  | false =>
    rw [snapshot_index_of_not_skips hskip]
    exact Snapshot.recordsFrom_ofFiles h files _

/-- The records after a run are those of supplied contents. -/
theorem recordsFrom_run {x : Indexer} {supplied : List ProjectEntry}
    (h : x.snapshot.RecordsFrom x.chunkers supplied) (projects : List (List ProjectEntry)) :
    (x.run projects).snapshot.RecordsFrom x.chunkers (supplied ++ projects.flatten) := by
  induction projects generalizing x supplied with
  | nil => exact h.mono (List.subset_append_left _ _)
  | cons files rest ih =>
    rw [List.flatten_cons, ← List.append_assoc]
    exact ih (recordsFrom_index h files)

theorem recordsFrom_fresh (settings : Settings) (chunkers : Chunkers) :
    (fresh settings chunkers).snapshot.RecordsFrom chunkers [] := by
  intro entry hentry
  simp [fresh] at hentry

/-- Incremental indexing equals indexing from scratch. In a run of any length in which fingerprints
distinguish the contents of every path, a call that is not skipped publishes the snapshot that its
project alone gives on a new indexer, the version apart; a skipped call changes nothing. -/
theorem index_eq_index_fresh (settings : Settings) (chunkers : Chunkers)
    (earlier : List (List ProjectEntry)) (files : List ProjectEntry)
    (h : Project.Distinguished (earlier.flatten ++ files)) :
    let start := fresh settings chunkers
    let x := start.run earlier
    (x.skips files = true → (x.index files).1 = x) ∧
      (x.skips files = false →
        start.skips files = false ∧
          (x.index files).1.snapshot =
            { (start.index files).1.snapshot with version := x.snapshot.version + 1 }) := by
  intro start x
  have hrun : x.snapshot.RecordsFrom chunkers earlier.flatten :=
    recordsFrom_run (recordsFrom_fresh settings chunkers) earlier
  have hchunkers : x.chunkers = chunkers := chunkers_run start earlier
  have hstart : start.skips files = false := not_skips_of_root_eq_nil rfl files
  refine ⟨index_of_skips, fun hskip => ⟨hstart, ?_⟩⟩
  rw [snapshot_index_of_not_skips hskip, snapshot_index_of_not_skips hstart, hchunkers,
    Snapshot.recordsFor_eq hrun h]
  -- a new indexer has no records, so its call gives the records of the contents as well
  have hfresh := Snapshot.recordsFor_eq (recordsFrom_fresh settings chunkers)
    (h.mono (List.subset_append_right _ _) : Project.Distinguished ([] ++ files))
  rw [show start.chunkers = chunkers from rfl, hfresh]
  rfl

/-- A file that was removed and comes back behind another one. -/
theorem index_eq_index_fresh_of_returning_file :
    let a : ProjectEntry := { path := "a.ts".toList, content := "let a;".toList }
    let b : ProjectEntry := { path := "b.ts".toList, content := "let b;".toList }
    let start := fresh {} ({} : Settings).chunkers
    let x := start.run [[a, b], [b]]
    Project.Distinguished ([[a, b], [b]].flatten ++ [b, a]) ∧ x.skips [b, a] = false ∧
      (x.index [b, a]).1.snapshot =
        { (start.index [b, a]).1.snapshot with version := x.snapshot.version + 1 } := by
  intro a b start x
  have h : Project.Distinguished ([[a, b], [b]].flatten ++ [b, a]) := by decide +kernel
  have hskip : x.skips [b, a] = false := by decide +kernel
  obtain ⟨-, hpublished⟩ := index_eq_index_fresh {} ({} : Settings).chunkers [[a, b], [b]] [b, a] h
  exact ⟨h, hskip, (hpublished hskip).2⟩

end Indexer

end SourceIndex
