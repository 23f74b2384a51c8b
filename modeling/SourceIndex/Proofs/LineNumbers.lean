import SourceIndex.Proofs.Agreement
import SourceIndex.Proofs.Findings
import SourceIndex.Proofs.Isolation
import SourceIndex.Proofs.Location

/-!
# Line numbers are those of the files

A file is cut anew only when it was added or updated, so the chunks that a snapshot holds are not
always those of the current contents. `sourcesAfter` keeps the content from which each file was cut
last. In every reachable state the references and the issues name lines of these contents, in which the
name or the trigger occurs.
-/

namespace SourceIndex

/-- The text has a line with the number, and the line has the property. -/
def Text.HasLine (s : Text) (number : Int) (p : Text → Prop) : Prop :=
  0 ≤ number ∧ ∃ line, s.lines[number.toNat]? = some line ∧ p line

/-- What is found in a line of a located chunk is found in the line of the file with its number. -/
theorem Chunk.Located.hasLine {c : Chunk} {content line : Text} {i : Nat} (h : c.Located content)
    (hline : c.content.lines[i]? = some line) {p : Text → Prop}
    (hp : ∀ whole, line <:+: whole → p whole) : content.HasLine (c.startLine + (i : Nat)) p := by
  obtain ⟨whole, hwhole, hpart⟩ := h.exists_line i line hline
  have hstart := h.start_nonneg
  have hnumber : (c.startLine + (i : Nat)).toNat = c.startLine.toNat + i := by omega
  exact ⟨by omega, whole, by rw [hnumber, hwhole], hp whole hpart⟩

/-- Each chunker of settings returns chunks that are located in the file. -/
theorem Settings.exists_located_chunks {settings : Settings} {chunker : Chunker}
    (h : chunker ∈ settings.chunkers.ordered ++ settings.chunkers.fallback.toList)
    (path content : Text) :
    ∃ chunks, chunker.chunk? path content = some chunks ∧ ∀ c ∈ chunks, c.Located content := by
  obtain ⟨cut, hcut, hchunk⟩ := exists_cut_of_mem h
  refine ⟨_, hchunk path content, fun c hc => ?_⟩
  split at hc
  · cases hc
  · exact located_of_mem_cut hcut hc

/-- The chunks in the record of a file have its path and are located in it, also if it is degraded. -/
theorem FileRecord.located_of_mem_chunks {settings : Settings} {path content : Text} {c : Chunk}
    (h : c ∈ (ofContent settings.chunkers path content).chunks) :
    c.path = path ∧ c.Located content := by
  obtain ⟨cut, hcut, hc⟩ := exists_cut_of_mem_chunks h
  exact ⟨(Settings.madeFor_of_mem_cut hcut hc).path_eq, Settings.located_of_mem_cut hcut hc⟩

namespace Indexer

/-! ## The contents that were cut last -/

/-- The contents from which the files are cut after a call: those of the project, but for a path that
is unchanged the one from before. -/
def sourcesIndex (x : Indexer) (sources : OrderedMap Text Text) (files : List ProjectEntry) :
    OrderedMap Text Text :=
  if x.skips files then sources
  else
    let delta := Delta.between x.snapshot.fingerprints (Project.fingerprints files)
    (Project.contents files).mapValues fun path content =>
      if delta.unchanged.contains path then (sources.get? path).getD content else content

/-- The contents from which the files are cut after a run. -/
def sourcesAfter (x : Indexer) (sources : OrderedMap Text Text) :
    List (List ProjectEntry) → OrderedMap Text Text
  | [] => sources
  | files :: rest => (x.index files).1.sourcesAfter (x.sourcesIndex sources files) rest

/-- A call keeps the records those of the contents that were cut last. -/
theorem files_index {x : Indexer} {sources : OrderedMap Text Text}
    (h : x.snapshot.files = sources.mapValues (FileRecord.ofContent x.chunkers))
    (files : List ProjectEntry) :
    (x.index files).1.snapshot.files =
      (x.sourcesIndex sources files).mapValues (FileRecord.ofContent x.chunkers) := by
  rw [sourcesIndex]
  cases hskip : x.skips files with
  | true => rwa [index_of_skips hskip, if_pos rfl]
  | false =>
    rw [snapshot_index_of_not_skips hskip, if_neg Bool.false_ne_true, OrderedMap.mapValues_mapValues]
    show x.snapshot.recordsFor x.chunkers (Project.contents files) = _
    refine OrderedMap.mapValues_congr fun ⟨path, content⟩ hentry => ?_
    have hunchanged := List.contains_iff_mem.trans (Snapshot.mem_unchanged_iff (s := x.snapshot) hentry)
    cases hkept : x.snapshot.currentRecord? path content with
    | none =>
      rw [if_neg fun hpath => hunchanged.mp hpath hkept]
      rfl
    | some record =>
      rw [if_pos (hunchanged.mpr (by rw [hkept]; exact Option.some_ne_none record))]
      -- the record that is kept is that of the content from which the path was cut before
      have hget := OrderedMap.get?_eq_some_iff.mpr (Snapshot.currentRecord?_eq_some hkept).1
      rw [h, OrderedMap.get?_mapValues] at hget
      obtain ⟨source, hsource, hrecord⟩ := Option.map_eq_some_iff.mp hget
      rw [hsource]
      exact hrecord.symm

/-- After a run the records are those of the contents that were cut last. -/
theorem files_run {x : Indexer} {sources : OrderedMap Text Text}
    (h : x.snapshot.files = sources.mapValues (FileRecord.ofContent x.chunkers))
    (projects : List (List ProjectEntry)) :
    (x.run projects).snapshot.files =
      (x.sourcesAfter sources projects).mapValues (FileRecord.ofContent x.chunkers) := by
  induction projects generalizing x sources with
  | nil => exact h
  | cons files rest ih => exact ih (files_index h files)

section Published

variable {settings : Settings} {x : Indexer} {sources : OrderedMap Text Text}
  (hpublished : x.Published)
  (hfiles : x.snapshot.files = sources.mapValues (FileRecord.ofContent settings.chunkers))
include hpublished hfiles

/-- A published chunk is located in the content from which its file was cut last. -/
theorem located_of_mem_snapshot {c : IndexedChunk} (hc : c ∈ x.snapshot.chunks) :
    ∃ content, sources.get? c.path = some content ∧ c.Located content := by
  rcases hpublished with hempty | hpublished
  · rw [hempty] at hc
    cases hc
  · rw [hpublished] at hc
    obtain ⟨d, hd, rfl⟩ := List.mem_map.mp hc
    rw [hfiles] at hd
    obtain ⟨entry, hentry, hd⟩ := Snapshot.exists_entry_of_mem_chunksOf hd
    obtain ⟨source, hsource, rfl⟩ := List.mem_map.mp hentry
    obtain ⟨hpath, hlocated⟩ := FileRecord.located_of_mem_chunks hd
    refine ⟨source.2, ?_, hlocated⟩
    show sources.get? d.path = some source.2
    rw [hpath, OrderedMap.get?_eq_some_iff]
    exact hsource

/-! ## References and issues -/

/-- A reference names a line of the content of its path that has the name. -/
theorem hasLine_of_mem_references {name : Text} (hname : name ≠ []) {r : Reference}
    (hr : r ∈ x.snapshot.references name) :
    ∃ content, sources.get? r.path = some content ∧ content.HasLine r.line (name <:+: ·) := by
  rw [Snapshot.references_eq _ hname] at hr
  obtain ⟨c, hc, hr⟩ := List.mem_flatMap.mp hr
  obtain ⟨⟨line, i⟩, hmem, rfl⟩ := List.mem_map.mp hr
  obtain ⟨hnumbered, hoccurs⟩ := List.mem_filter.mp hmem
  obtain ⟨content, hsource, hlocated⟩ := located_of_mem_snapshot hpublished hfiles hc
  exact ⟨content, hsource, hlocated.hasLine (List.mem_zipIdx_iff_getElem?.mp hnumbered)
    fun whole hpart => (of_decide_eq_true hoccurs).trans hpart⟩

/-- An issue names a line of the content of its path that has the trigger. -/
theorem hasLine_of_mem_issues {issue : Issue} (h : issue ∈ x.issues.1) :
    ∃ content, sources.get? issue.path = some content ∧
      content.HasLine issue.line issue.finding.OccursIn := by
  obtain ⟨d, hd, hissue⟩ := List.mem_flatMap.mp h
  obtain ⟨c, hc, rfl⟩ := List.mem_map.mp hd
  obtain ⟨hpath, i, line, hline, hnumber, hoccurs⟩ := Issue.exists_line_of_mem_inChunk hissue
  obtain ⟨content, hsource, hlocated⟩ := located_of_mem_snapshot hpublished hfiles hc
  rw [hpath, hnumber]
  exact ⟨content, hsource, hlocated.hasLine hline fun whole hpart => hoccurs.of_part hpart⟩

end Published

/-- Every line number is a real one. The chunkers of settings return chunks that have as many lines as
they say, each part of the line of the file that has its number. In every reachable state, with the
contents from which the files were cut last,
* the records are those of these contents,
* the references of a name are the lines of chunks with the name, in the order of the chunks, then of
  their lines, and each names a line of the content of its path in which the name occurs,
* each issue names a line of the content of its path in which its trigger occurs. -/
theorem line_numbers_run (settings : Settings) (projects : List (List ProjectEntry)) :
    let start := fresh settings settings.chunkers
    let x := start.run projects
    let sources := start.sourcesAfter .empty projects
    (∀ chunker ∈ settings.chunkers.ordered ++ settings.chunkers.fallback.toList,
      ∀ path content, ∃ chunks, chunker.chunk? path content = some chunks ∧
        ∀ c ∈ chunks, c.Located content) ∧
    x.snapshot.files = sources.mapValues (FileRecord.ofContent settings.chunkers) ∧
    (∀ name : Text, name ≠ [] →
      (x.references name).1 =
        (x.snapshot.chunks.flatMap fun c =>
          (c.content.lines.zipIdx.filter fun numbered => name <:+: numbered.1).map fun numbered =>
            { path := c.path, line := c.startLine + numbered.2, context := numbered.1.trim }) ∧
      ∀ r ∈ (x.references name).1, ∃ content, sources.get? r.path = some content ∧
        content.HasLine r.line (name <:+: ·)) ∧
    ∀ issue ∈ x.issues.1, ∃ content, sources.get? issue.path = some content ∧
      content.HasLine issue.line issue.finding.OccursIn := by
  intro start x sources
  have hfiles : x.snapshot.files = sources.mapValues (FileRecord.ofContent settings.chunkers) :=
    files_run (x := start) rfl projects
  have hpublished : x.Published :=
    run_induction (motive := fun x _ => x.Published) (fun _ _ files h => published_index h files)
      start [] projects (.inl rfl)
  refine ⟨?_, hfiles, fun name hname => ⟨?_, fun r hr => ?_⟩, fun issue hissue => ?_⟩
  · exact fun chunker hchunker => Settings.exists_located_chunks hchunker
  · exact Snapshot.references_eq x.snapshot hname
  · exact hasLine_of_mem_references hpublished hfiles hname hr
  · exact hasLine_of_mem_issues hpublished hfiles hissue

end Indexer

end SourceIndex
