import SourceIndex.Proofs.Chunkers
import SourceIndex.Proofs.Infix
import SourceIndex.Proofs.QueryFile
import SourceIndex.Proofs.Script

/-!
# Chunks lie where they say

Every line of a chunk is part of the line of the file that has its number. A chunk of a block has the
lines of the file themselves. A statement is trimmed at both ends, and its first line is counted from
the newlines before it, so it lies where the text in front of it ends.
-/

namespace SourceIndex

namespace Chunk

/-- A chunk has as many lines as its line numbers and its metadata say, and each is part of the line of
the file that has its number. -/
structure Located (c : Chunk) (content : Text) : Prop where
  start_nonneg : 0 ≤ c.startLine
  length_lines : (c.content.lines.length : Int) = c.lineCount
  lineCount_eq : c.metadata.lineCount = c.lineCount
  exists_line : ∀ i line, c.content.lines[i]? = some line →
    ∃ whole, content.lines[c.startLine.toNat + i]? = some whole ∧ line <:+: whole

/-- A chunk that `make` made is located if its text stands in the file behind as many newlines as its
first line says. -/
theorem located_of_part {c : Chunk} {path content a b : Text} (hmade : c.MadeFor path)
    (hcontent : a ++ c.content ++ b = content) (hstart : c.startLine = a.count '\n')
    (hend : c.endLine = c.startLine + c.content.count '\n') : c.Located content where
  start_nonneg := hstart ▸ Int.natCast_nonneg _
  length_lines := by
    rw [Text.length_lines, lineCount, hend]
    omega
  lineCount_eq := hmade.lineCount_eq
  exists_line i line hline := by
    rw [← hcontent, hstart, Int.toNat_natCast]
    exact Text.exists_line_of_part a b hline

/-- The chunk of consecutive lines of a file is located. -/
theorem located_ofBlock {path name content : Text} {kind : Kind} {first : Nat} {lines : List Text}
    (hne : lines ≠ []) (hlines : lines <+: content.lines.drop first) :
    (ofBlock path kind name first lines).Located content := by
  have hblock : (ofBlock path kind name first lines).content.lines = lines := by
    refine Text.lines_unlines hne fun line hline => ?_
    exact Text.not_mem_of_mem_splitOn (List.mem_of_mem_drop (hlines.subset hline))
  have hpos : 0 < lines.length := List.length_pos_iff.mpr hne
  refine ⟨Int.natCast_nonneg first, ?_, rfl, fun i line hline => ⟨line, ?_, List.infix_refl line⟩⟩
  · rw [hblock]
    show (lines.length : Int) = (first + lines.length - 1 : Nat) - (first : Int) + 1
    omega
  · rw [hblock] at hline
    show content.lines[first + i]? = some line
    rw [← List.getElem?_drop]
    obtain ⟨more, hmore⟩ := hlines
    rw [← hmore, List.getElem?_append_left (List.getElem?_eq_some_iff.mp hline).1, hline]

/-- The chunk of a block is located. -/
theorem located_of_mem_blocks {α : Type} {recognise : Text → Option α} {start : Nat}
    {content : Text} {b : Block α} (hb : b ∈ blocks recognise start content.lines)
    (path name : Text) (kind : Kind) :
    (ofBlock path kind name b.first b.lines).Located content := by
  obtain ⟨-, hlies⟩ := liesIn_of_mem_blocks hb
  exact located_ofBlock (List.length_pos_iff.mp hlies.length_bounds.1) hlies.hstart

/-- The chunk of a whole file is located. -/
theorem located_wholeFile (path : Text) (kind : Kind) (content : Text) :
    (wholeFile path kind content).Located content where
  start_nonneg := Int.le_refl 0
  length_lines := by
    have hlines := Text.length_lines content
    show (content.lines.length : Int) = (content.lines.length - 1 : Nat) - 0 + 1
    omega
  lineCount_eq := rfl
  exists_line i line hline := by
    refine ⟨line, ?_, List.infix_refl line⟩
    show content.lines[0 + i]? = some line
    rwa [Nat.zero_add]

end Chunk

/-! ## The ways to cut a file -/

/-- The chunks of a script are located. -/
theorem Script.located_of_mem_chunks {path content : Text} {c : Chunk}
    (h : c ∈ chunks path content) : c.Located content := by
  have hparts : ∀ c ∈ importChunks path content.lines ++ typeChunks path content.lines ++
      valueChunks path content.lines, c.Located content := by
    intro c hc
    rcases List.mem_append.mp hc with hc | hc
    · rcases List.mem_append.mp hc with hc | hc
      · rw [importChunks] at hc
        split at hc
        · cases hc
        · rename_i first last hrun
          obtain ⟨hle, hlast, -⟩ := importRun?_bounds hrun
          rw [List.mem_singleton.mp hc]
          refine Chunk.located_ofBlock (List.ne_nil_of_length_pos ?_) (List.take_prefix _ _)
          rw [List.length_take, List.length_drop]
          omega
      · obtain ⟨b, hb, rfl⟩ := List.mem_map.mp hc
        exact Chunk.located_of_mem_blocks hb _ _ _
    · obtain ⟨b, hb, hchunk⟩ := List.mem_filterMap.mp hc
      obtain ⟨label, -, rfl⟩ := Option.map_eq_some_iff.mp hchunk
      exact Chunk.located_of_mem_blocks hb _ _ _
  rw [chunks] at h
  split at h
  · rw [List.mem_singleton.mp h]
    exact Chunk.located_wholeFile path .unknown content
  · exact hparts c h

/-- The chunks of a stylesheet are located. -/
theorem Stylesheet.located_of_mem_chunks {path content : Text} {c : Chunk}
    (h : c ∈ chunks path content) : c.Located content := by
  rw [chunks] at h
  split at h
  · rw [List.mem_singleton.mp h]
    exact Chunk.located_wholeFile path .style content
  · obtain ⟨b, hb, rfl⟩ := List.mem_map.mp h
    exact Chunk.located_of_mem_blocks hb _ _ _

namespace QueryFile

/-- The chunk of a raw statement is located in a file that has the statement behind the lines counted
before it. -/
theorem located_statementChunk (path a raw b : Text) :
    (statementChunk path (newlines a) raw).Located (a ++ raw ++ b) := by
  obtain ⟨z, hraw, -⟩ := Text.exists_trim_append raw
  refine Chunk.located_of_part (a := a ++ raw.takeWhile isBlankChar) (b := z ++ b) rfl ?_ ?_ ?_
  · show a ++ raw.takeWhile isBlankChar ++ raw.trim ++ (z ++ b) = a ++ raw ++ b
    conv_rhs => rw [hraw]
    simp only [List.append_assoc]
  · rw [List.count_append]
    rfl
  · exact Int.natCast_add (newlines a + newlines (raw.takeWhile isBlankChar)) (newlines raw.trim)

/-- The chunks of a query file are located. -/
theorem located_of_mem_statements {path content : Text} {c : Chunk}
    (h : c ∈ statements path content) : c.Located content := by
  obtain ⟨front, raw, sep, rest, hraws, -, rfl⟩ := exists_of_mem_statementsFrom h
  rw [Nat.zero_add, ← flatMap_splitStatements content, hraws, List.flatMap_append,
    List.flatMap_cons, List.append_assoc raw, ← List.append_assoc]
  exact located_statementChunk path (front.flatMap fun part => part.1 ++ part.2) raw _

end QueryFile

/-- Each way to cut a file gives chunks that are located. -/
theorem Settings.located_of_mem_cut {cut : (path content : Text) → List Chunk} (hcut : cut ∈ cuts)
    {path content : Text} {c : Chunk} (h : c ∈ cut path content) : c.Located content := by
  simp only [cuts, List.mem_cons, List.not_mem_nil, or_false] at hcut
  rcases hcut with rfl | rfl | rfl | rfl | rfl
  · exact Script.located_of_mem_chunks h
  · exact Stylesheet.located_of_mem_chunks h
  · exact QueryFile.located_of_mem_statements h
  · rw [List.mem_singleton.mp h]
    exact Chunk.located_wholeFile path .config content
  · rw [List.mem_singleton.mp h]
    exact Chunk.located_wholeFile path .unknown content

end SourceIndex
