import SourceIndex.Indexer
import SourceIndex.Proofs.Chunkers
import SourceIndex.Proofs.QueryFile
import SourceIndex.Proofs.Script

/-!
# Files of the chunkers of settings are accepted

Whatever the content of a file, the chunker that settings choose for it makes chunks that meet the
chunk contract, provided that the file has a name. So no such file is ever degraded.
-/

namespace SourceIndex

/-! ## Stylesheets -/

namespace Stylesheet

/-- Every rule set has a name: it starts with the first character of its marker. -/
theorem isBlank_ruleSet? {line name : Text} (h : ruleSet? line = some name) :
    name.isBlank = false := by
  have hmarkers : ∀ marker ∈ markers, ∃ c rest, marker = c :: rest ∧ isBlankChar c = false ∧
      c ≠ '{' := by
    simp only [markers, List.map_cons, List.map_nil, List.forall_mem_cons]
    exact ⟨⟨'@', _, rfl, by decide, by decide⟩, ⟨':', _, rfl, by decide, by decide⟩,
      ⟨'.', _, rfl, by decide, by decide⟩, ⟨'@', _, rfl, by decide, by decide⟩, by simp⟩
  rw [ruleSet?] at h
  split at h
  · rename_i hmarked
    obtain ⟨marker, hmarker, hstart⟩ := List.any_eq_true.mp hmarked
    obtain ⟨c, rest, rfl, hblank, hbrace⟩ := hmarkers marker hmarker
    obtain ⟨more, hline⟩ := List.isPrefixOf_iff_prefix.mp hstart
    -- the name runs up to the first blank or brace, and the marker starts with neither
    have hmem : c ∈ line.trim.takeWhile fun c => !(isBlankChar c || c == '{') := by
      rw [← hline]
      simp [hblank, hbrace]
    cases h
    refine Text.isBlank_eq_false ?_ hblank
    unfold ruleSetName
    split
    · exact List.mem_append_left _ hmem
    · exact hmem
  · cases h

/-- The chunks of rule sets fit the stylesheet. -/
theorem fits_of_mem_ruleSets {path content : Text} {c : Chunk} (h : c ∈ ruleSets path content) :
    c.Fits content.lines.length := by
  obtain ⟨b, hb, rfl⟩ := List.mem_map.mp h
  obtain ⟨line, -, -, hname⟩ := (liesIn_of_mem_blocks hb).2.recognised
  exact Chunk.fits_of_mem_blocks hb (isBlank_ruleSet? hname)

/-- No two rule sets start at one line. -/
theorem pairwise_ruleSets (path content : Text) :
    (ruleSets path content).Pairwise fun c d => c.startLine ≠ d.startLine := by
  rw [ruleSets, ← List.filterMap_eq_map]
  refine pairwise_filterMap_blocks _ 0 content.lines fun b c hc => ?_
  cases hc
  rfl

end Stylesheet

/-! ## All ways to cut a file -/

namespace Settings

/-- Each way to cut a file with a name gives chunks that fit it and start at different lines. -/
theorem fits_of_mem_cuts {cut : (path content : Text) → List Chunk} (hcut : cut ∈ cuts)
    {path : Text} (hname : (Path.baseName path).isBlank = false) (content : Text) :
    (∀ c ∈ cut path content, c.Fits content.lines.length) ∧
      (cut path content).Pairwise fun c d => c.startLine ≠ d.startLine := by
  have hwhole : ∀ kind, (∀ c ∈ [Chunk.wholeFile path kind content], c.Fits content.lines.length) ∧
      [Chunk.wholeFile path kind content].Pairwise fun c d => c.startLine ≠ d.startLine := by
    intro kind
    refine ⟨fun c hc => ?_, List.pairwise_singleton _ _⟩
    rw [List.mem_singleton.mp hc]
    exact Chunk.fits_wholeFile kind content hname
  simp only [cuts, List.mem_cons, List.not_mem_nil, or_false] at hcut
  rcases hcut with rfl | rfl | rfl | rfl | rfl
  · exact ⟨fun c hc => Script.fits_of_mem_chunks hname hc, Script.pairwise_chunks path content⟩
  · rw [Stylesheet.chunks]
    split
    · exact hwhole .style
    · exact ⟨fun c hc => Stylesheet.fits_of_mem_ruleSets hc,
        Stylesheet.pairwise_ruleSets path content⟩
  · refine ⟨fun c hc => QueryFile.fits_of_mem_statements hc, ?_⟩
    -- a statement starts below the last line of the one before, so below its first line
    refine (QueryFile.pairwise_statements path content).imp_of_mem fun hc _ hlt => ?_
    have hle := (QueryFile.fits_of_mem_statements hc).start_le_end
    omega
  · exact hwhole .config
  · exact hwhole .unknown

/-- The chunker that settings choose for a file with a name accepts every content. -/
theorem exists_chunks {path : Text} (settings : Settings)
    (hname : (Path.baseName path).isBlank = false) (content : Text) :
    ∃ chunker chunks, settings.chunkers.for? path = some chunker ∧
      chunker.chunk? path content = some chunks ∧
      (∀ c ∈ chunks, c.Fits content.lines.length) ∧ (chunks.map Chunk.id).Nodup := by
  obtain ⟨chunker, hchunker⟩ := exists_chunker settings path
  obtain ⟨cut, hcut, hchunk⟩ := exists_cut hchunker
  refine ⟨chunker, _, hchunker, hchunk content, ?_⟩
  split
  · simp
  · obtain ⟨hfits, hstarts⟩ := fits_of_mem_cuts hcut hname content
    exact ⟨hfits, nodup_ids_of_pairwise_ne (fun c hc => madeFor_of_mem_cut hcut hc) hstarts⟩

end Settings

/-! ## Degraded files -/

namespace FileRecord

/-- The chunks that the chunkers of settings make of a file with a name are accepted. -/
theorem exists_acceptedChunks? {path : Text} (settings : Settings)
    (hname : (Path.baseName path).isBlank = false) (content : Text) :
    ∃ chunker chunks, settings.chunkers.for? path = some chunker ∧
      chunker.chunk? path content = some chunks ∧
      acceptedChunks? settings.chunkers path content = some chunks := by
  obtain ⟨chunker, chunks, hchunker, hchunk, hcontract⟩ :=
    Settings.exists_chunks settings hname content
  refine ⟨chunker, chunks, hchunker, hchunk, ?_⟩
  rw [acceptedChunks?, hchunker, Option.bind_eq_bind, Option.bind_some, hchunk,
    Option.bind_eq_bind, Option.bind_some, contractViolation?_eq_none_iff.mpr hcontract]
  rfl

/-- A file with a name is not degraded by the chunkers of settings. -/
theorem isDegraded_eq_false {path : Text} (settings : Settings)
    (hname : (Path.baseName path).isBlank = false) (content : Text) :
    isDegraded settings.chunkers path content = false := by
  obtain ⟨chunker, chunks, -, -, haccepted⟩ := exists_acceptedChunks? settings hname content
  rw [isDegraded, haccepted]
  rfl

end FileRecord

/-- Only files that are degraded are reported as such. -/
theorem Snapshot.exists_of_mem_degraded {s : Snapshot} {chunkers : Chunkers}
    {files : List ProjectEntry} {path : Text} (h : path ∈ (s.refresh chunkers files).degraded) :
    ∃ content, FileRecord.isDegraded chunkers path content = true := by
  rw [refresh] at h
  split at h
  · cases h
  · obtain ⟨⟨_, content⟩, hentry, rfl⟩ := List.mem_map.mp h
    obtain ⟨-, hdegraded⟩ := List.mem_filter.mp hentry
    exact ⟨content, (Bool.and_eq_true_iff.mp hdegraded).2⟩

namespace Indexer

/-- An event of indexing names no file as degraded that was not. -/
theorem mem_degraded_of_mem_metadata {x : Indexer} {files : List ProjectEntry} {path : Text}
    {names : List Json} (h : ("degraded_files".toList, .arr names) ∈ (x.index files).2.2.metadata)
    (hpath : .str path ∈ names) : path ∈ (x.snapshot.refresh x.chunkers files).degraded := by
  change _ ∈ refreshMetadata (x.snapshot.refresh x.chunkers files) at h
  rcases List.mem_append.mp h with h | h
  · simp [count] at h
  · split at h
    · cases h
    · cases List.mem_singleton.mp h
      obtain ⟨name, hname, heq⟩ := List.mem_map.mp hpath
      cases heq
      exact hname

/-- The chunkers of settings always meet the chunk contract on files with names. Whatever the content,
there is a chunker for the path, it gives chunks that break nothing (each has a name and lies within
the file, and no two share an identifier), and so no indexer with these chunkers names the file as
degraded, whatever it has indexed before. -/
theorem contractViolation?_eq_none {path : Text} (settings : Settings)
    (hname : (Path.baseName path).isBlank = false) :
    (∀ content, ∃ chunker chunks, settings.chunkers.for? path = some chunker ∧
      chunker.chunk? path content = some chunks ∧
      contractViolation? chunks content.lines.length = none ∧
      (∀ c ∈ chunks, c.name.isBlank = false ∧ 0 ≤ c.startLine ∧ c.startLine ≤ c.endLine ∧
        c.endLine ≤ content.lines.length - 1) ∧
      (chunks.map Chunk.id).Nodup) ∧
    ∀ x : Indexer, x.chunkers = settings.chunkers → ∀ files names,
      ("degraded_files".toList, .arr names) ∈ (x.index files).2.2.metadata →
        .str path ∉ names := by
  constructor
  · intro content
    obtain ⟨chunker, chunks, hchunker, hchunk, hfits, hids⟩ :=
      Settings.exists_chunks settings hname content
    refine ⟨chunker, chunks, hchunker, hchunk, contractViolation?_eq_none_iff.mpr ⟨hfits, hids⟩,
      fun c hc => ?_, hids⟩
    obtain ⟨hnamed, hstart, hend, hlast⟩ := hfits c hc
    have hlines := Text.length_lines content
    exact ⟨hnamed, hstart, hend, by omega⟩
  · intro x hchunkers files names hmetadata hpath
    have hreported := mem_degraded_of_mem_metadata hmetadata hpath
    obtain ⟨content, hdegraded⟩ := Snapshot.exists_of_mem_degraded hreported
    rw [hchunkers, FileRecord.isDegraded_eq_false settings hname] at hdegraded
    cases hdegraded

/-- A script whose import, type and constant stand on one line each. -/
theorem contractViolation?_eq_none_of_script :
    let path : Text := "src/a.ts".toList
    let content : Text := "import b\ntype C = {}\nconst d = {}".toList
    (Path.baseName path).isBlank = false ∧
      ∃ chunker chunks, ({} : Settings).chunkers.for? path = some chunker ∧
        chunker.chunk? path content = some chunks ∧
        contractViolation? chunks content.lines.length = none := by
  intro path content
  have hname : (Path.baseName path).isBlank = false := by decide +kernel
  obtain ⟨chunker, chunks, hchunker, hchunk, hcontract, -⟩ :=
    (contractViolation?_eq_none {} hname).1 content
  exact ⟨hname, chunker, chunks, hchunker, hchunk, hcontract⟩

end Indexer

end SourceIndex
