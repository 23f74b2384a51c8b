import SourceIndex.Proofs.QueryFile
import SourceIndex.Settings.Basic
import SourceIndex.Snapshot.Refresh

/-!
# The chunkers of settings

Settings ask for four chunkers by extension and one for all other files, so every path has a chunker.
Each leaves blank files without chunks and otherwise cuts them in one of five ways. All their chunks are
made by `Chunk.make` for the path that is given, so none has another path, and all other fields are
computed from the text of the chunk and from its place.
-/

namespace SourceIndex

namespace Settings

/-- The ways in which the chunkers of settings cut files that are not blank. -/
def cuts : List ((path content : Text) → List Chunk) :=
  [Script.chunks, Stylesheet.chunks, QueryFile.statements,
    fun path content => [.wholeFile path .config content],
    fun path content => [.wholeFile path .unknown content]]

/-- Every path has a chunker. -/
theorem exists_chunker (settings : Settings) (path : Text) :
    ∃ chunker, settings.chunkers.for? path = some chunker := by
  rw [Chunkers.for?]
  cases h : settings.chunkers.ordered.find? (·.supports path) with
  | none => exact ⟨WholeFile.chunker, rfl⟩
  | some chunker => exact ⟨chunker, rfl⟩

/-- Each chunker cuts every file that is not blank in one of the five ways. -/
theorem exists_cut_of_mem {settings : Settings} {chunker : Chunker}
    (h : chunker ∈ settings.chunkers.ordered ++ settings.chunkers.fallback.toList) :
    ∃ cut ∈ cuts, ∀ path content,
      chunker.chunk? path content = some (if content.isBlank then [] else cut path content) := by
  simp only [chunkers, Option.toList_some, List.cons_append, List.nil_append, List.mem_cons,
    List.not_mem_nil, or_false] at h
  rcases h with rfl | rfl | rfl | rfl | rfl
  · exact ⟨Script.chunks, by simp [cuts], fun _ _ => rfl⟩
  · exact ⟨Stylesheet.chunks, by simp [cuts], fun _ _ => rfl⟩
  · exact ⟨QueryFile.statements, by simp [cuts], fun _ _ => rfl⟩
  · exact ⟨fun path content => [.wholeFile path .config content], by simp [cuts], fun _ _ => rfl⟩
  · exact ⟨fun path content => [.wholeFile path .unknown content], by simp [cuts], fun _ _ => rfl⟩

/-- The chunker for a path cuts every file that is not blank in one of the five ways. -/
theorem exists_cut {settings : Settings} {path : Text} {chunker : Chunker}
    (h : settings.chunkers.for? path = some chunker) :
    ∃ cut ∈ cuts, ∀ content,
      chunker.chunk? path content = some (if content.isBlank then [] else cut path content) := by
  have hmem : chunker ∈ settings.chunkers.ordered ++ settings.chunkers.fallback.toList := by
    rcases Option.or_eq_some_iff.mp h with h | ⟨-, h⟩
    · exact List.mem_append_left _ (List.mem_of_find?_eq_some h)
    · exact List.mem_append_right _ (Option.mem_toList.mpr h)
  obtain ⟨cut, hcut, hchunk⟩ := exists_cut_of_mem hmem
  exact ⟨cut, hcut, hchunk path⟩

end Settings

/-! ## Made chunks -/

/-- The chunks of a script are made for its path. -/
theorem Script.madeFor_of_mem_chunks {path content : Text} {c : Chunk}
    (h : c ∈ chunks path content) : c.MadeFor path := by
  have hparts : ∀ c ∈ importChunks path content.lines ++ typeChunks path content.lines ++
      valueChunks path content.lines, c.MadeFor path := by
    intro c hc
    rcases List.mem_append.mp hc with hc | hc
    · rcases List.mem_append.mp hc with hc | hc
      · rw [importChunks] at hc
        split at hc
        · cases hc
        · rw [List.mem_singleton.mp hc]
          rfl
      · obtain ⟨b, -, rfl⟩ := List.mem_map.mp hc
        rfl
    · obtain ⟨b, -, hb⟩ := List.mem_filterMap.mp hc
      obtain ⟨label, -, rfl⟩ := Option.map_eq_some_iff.mp hb
      rfl
  rw [chunks] at h
  split at h
  · rw [List.mem_singleton.mp h]
    rfl
  · exact hparts c h

/-- The chunks of a stylesheet are made for its path. -/
theorem Stylesheet.madeFor_of_mem_chunks {path content : Text} {c : Chunk}
    (h : c ∈ chunks path content) : c.MadeFor path := by
  rw [chunks] at h
  split at h
  · rw [List.mem_singleton.mp h]
    rfl
  · obtain ⟨b, -, rfl⟩ := List.mem_map.mp h
    rfl

/-- The chunks of raw statements are made for the path of their file. -/
theorem QueryFile.madeFor_of_mem_statementsFrom {path : Text} {offset : Nat}
    {raws : List (Text × Text)} {c : Chunk} (h : c ∈ statementsFrom path offset raws) :
    c.MadeFor path := by
  obtain ⟨-, -, -, -, -, -, rfl⟩ := QueryFile.exists_of_mem_statementsFrom h
  rfl

/-- Each way to cut a file gives chunks that are made for its path. -/
theorem Settings.madeFor_of_mem_cut {cut : (path content : Text) → List Chunk} (hcut : cut ∈ cuts)
    {path content : Text} {c : Chunk} (h : c ∈ cut path content) : c.MadeFor path := by
  simp only [cuts, List.mem_cons, List.not_mem_nil, or_false] at hcut
  rcases hcut with rfl | rfl | rfl | rfl | rfl
  · exact Script.madeFor_of_mem_chunks h
  · exact Stylesheet.madeFor_of_mem_chunks h
  · exact QueryFile.madeFor_of_mem_statementsFrom h
  · rw [List.mem_singleton.mp h]
    rfl
  · rw [List.mem_singleton.mp h]
    rfl

/-- The chunks in the record of a file are cut in one of the five ways, also if it is degraded. -/
theorem FileRecord.exists_cut_of_mem_chunks {settings : Settings} {path content : Text} {c : Chunk}
    (h : c ∈ (ofContent settings.chunkers path content).chunks) :
    ∃ cut ∈ Settings.cuts, c ∈ cut path content := by
  change c ∈ (acceptedChunks? settings.chunkers path content).getD _ at h
  cases haccepted : acceptedChunks? settings.chunkers path content with
  | none =>
    rw [haccepted] at h
    exact ⟨fun path content => [.wholeFile path .unknown content], by simp [Settings.cuts], h⟩
  | some chunks =>
    rw [haccepted, Option.getD_some] at h
    simp only [acceptedChunks?, Option.bind_eq_bind, Option.bind_eq_some_iff] at haccepted
    obtain ⟨chunker, hchunker, cs, hcs, hkeep⟩ := haccepted
    obtain ⟨cut, hcut, hchunk⟩ := Settings.exists_cut hchunker
    rw [hchunk, Option.some.injEq] at hcs
    split at hkeep
    · cases hkeep
    · cases hkeep
      subst hcs
      split at h
      · cases h
      · exact ⟨cut, hcut, h⟩

/-- The chunks in the record of a file are made for its path, also if it is degraded. -/
theorem FileRecord.madeFor_of_mem_chunks {settings : Settings} {path content : Text} {c : Chunk}
    (h : c ∈ (ofContent settings.chunkers path content).chunks) : c.MadeFor path := by
  obtain ⟨cut, hcut, hc⟩ := exists_cut_of_mem_chunks h
  exact Settings.madeFor_of_mem_cut hcut hc

end SourceIndex
