import SourceIndex.Proofs.BlockEnd
import SourceIndex.Proofs.Contract
import Mathlib.Data.List.Pairwise

/-!
# Blocks cover the lines that are recognised

The search for blocks goes on below each block that it finds, so it jumps over lines. It jumps over
nothing that is recognised without putting it into a block: a recognised line starts a block or lies in
the one that was found before (`exists_mem_blocks`). The chunks of the blocks keep their order, and no
two of them share a line.
-/

namespace SourceIndex

/-! ## Lines of blocks -/

/-- The lines below the first one that a block spans are lines of the text. -/
theorem blockReach_le (line : Text) (rest : List Text) : blockReach (line :: rest) ≤ rest.length := by
  rw [blockReach]
  cases hreach : reachFrom? {} (line :: rest) with
  | none => exact Nat.le_refl _
  | some n => exact Nat.le_of_lt_succ ((reachFrom?_eq_some_iff []).mp hreach).1

section Blocks

variable {α : Type} {recognise : Text → Option α}

/-- Every block found takes the lines that the block of its first line spans. -/
theorem lines_of_mem_blocksFrom {skip first : Nat} {lines : List Text} {b : Block α}
    (h : b ∈ blocksFrom recognise skip first lines) :
    ∃ i < lines.length, b.first = first + i ∧
      b.lines = (lines.drop i).take (blockReach (lines.drop i) + 1) := by
  fun_induction blocksFrom recognise skip first lines with
  | case1 => cases h
  | case2 skip first line rest ih =>
    obtain ⟨i, hi, hfirst, hlines⟩ := ih h
    exact ⟨i + 1, Nat.succ_lt_succ hi, by omega, hlines⟩
  | case3 first line rest hnone ih =>
    obtain ⟨i, hi, hfirst, hlines⟩ := ih h
    exact ⟨i + 1, Nat.succ_lt_succ hi, by omega, hlines⟩
  | case4 first line rest label hlabel reach ih =>
    rcases List.mem_cons.mp h with rfl | h
    · exact ⟨0, Nat.succ_pos _, rfl, rfl⟩
    · obtain ⟨i, hi, hfirst, hlines⟩ := ih h
      exact ⟨i + 1, Nat.succ_lt_succ hi, by omega, hlines⟩

/-- A recognised line that is not skipped lies in a block. -/
theorem exists_mem_blocksFrom {skip first i : Nat} {lines : List Text} {line : Text}
    (hskip : skip ≤ i) (hline : lines[i]? = some line) (h : (recognise line).isSome = true) :
    ∃ b ∈ blocksFrom recognise skip first lines,
      b.first ≤ first + i ∧ first + i < b.first + b.lines.length := by
  fun_induction blocksFrom recognise skip first lines generalizing i with
  | case1 => cases hline
  | case2 skip first line' rest ih =>
    obtain ⟨i, rfl⟩ : ∃ j, i = j + 1 := ⟨i - 1, by omega⟩
    obtain ⟨b, hb, hle, hlt⟩ := ih (Nat.le_of_succ_le_succ hskip) hline
    exact ⟨b, hb, by omega, by omega⟩
  | case3 first line' rest hnone ih =>
    cases i with
    | zero =>
      cases hline
      rw [hnone] at h
      cases h
    | succ i =>
      obtain ⟨b, hb, hle, hlt⟩ := ih (Nat.zero_le i) hline
      exact ⟨b, hb, by omega, by omega⟩
  | case4 first line' rest label hlabel reach =>
    rename_i ih
    have hle : reach ≤ rest.length := blockReach_le line' rest
    -- a line that the block found here does not reach is looked for below the block
    by_cases hreach : i ≤ reach
    · refine ⟨_, List.mem_cons_self, Nat.le_add_right first i, ?_⟩
      show first + i < first + (line' :: rest.take reach).length
      rw [List.length_cons, List.length_take]
      omega
    · obtain ⟨i, rfl⟩ : ∃ j, i = j + 1 := ⟨i - 1, by omega⟩
      obtain ⟨b, hb, hfirst, hlast⟩ := ih (by omega) hline
      exact ⟨b, List.mem_cons_of_mem _ hb, by omega, by omega⟩

/-- Every block of a text consists of the lines from its first line to where the block that starts
there ends. -/
theorem lines_of_mem_blocks {start : Nat} {lines : List Text} {b : Block α}
    (h : b ∈ blocks recognise start lines) :
    b.lines = linesFromTo lines b.first (blockEnd lines b.first) ∧
      b.first + b.lines.length = blockEnd lines b.first + 1 := by
  obtain ⟨i, hi, hfirst, hlines⟩ := lines_of_mem_blocksFrom h
  rw [List.drop_drop, ← hfirst] at hlines
  rw [List.length_drop] at hi
  obtain ⟨line, rest, hdrop⟩ := List.exists_cons_of_ne_nil
    (List.ne_nil_of_length_pos (by rw [List.length_drop]; omega) : lines.drop b.first ≠ [])
  constructor
  · rw [linesFromTo, blockEnd, Nat.add_assoc, Nat.add_sub_cancel_left]
    exact hlines
  · have hle : blockReach (line :: rest) ≤ rest.length := blockReach_le line rest
    rw [hlines, blockEnd, hdrop, List.length_take, List.length_cons]
    omega

/-- Every recognised line from line `start` on lies in a block. -/
theorem exists_mem_blocks (recognise : Text → Option α) {start i : Nat} {lines : List Text}
    {line : Text} (hstart : start ≤ i) (hline : lines[i]? = some line)
    (h : (recognise line).isSome = true) :
    ∃ b ∈ blocks recognise start lines, b.first ≤ i ∧ i ≤ blockEnd lines b.first := by
  have hdrop : (lines.drop start)[i - start]? = some line := by
    rw [List.getElem?_drop, Nat.add_sub_cancel' hstart, hline]
  obtain ⟨b, hb, hfirst, hlast⟩ := exists_mem_blocksFrom (Nat.zero_le _) hdrop h
  have hend := (lines_of_mem_blocks hb).2
  exact ⟨b, hb, by omega, by omega⟩

end Blocks

/-! ## Chunks of blocks -/

/-- A chunk spans a line of its file. -/
def Chunk.Spans (c : Chunk) (i : Nat) : Prop :=
  c.startLine ≤ i ∧ i ≤ c.endLine

/-- Two chunks have no line in common: one ends above the start of the other. -/
def Chunk.Apart (c d : Chunk) : Prop :=
  c.endLine < d.startLine ∨ d.endLine < c.startLine

instance : Std.Symm Chunk.Apart where
  symm _ _ := Or.symm

/-- Chunks stand in the order of their lines, and no two of them have a line in common. -/
structure InOrder (chunks : List Chunk) : Prop where
  start_le_end : ∀ c ∈ chunks, c.startLine ≤ c.endLine
  end_lt_start : chunks.Pairwise fun c d => c.endLine < d.startLine

/-- Of chunks in order at most one spans a line. -/
theorem InOrder.existsUnique {chunks : List Chunk} (h : InOrder chunks) {i : Nat}
    (hspans : ∃ c ∈ chunks, c.Spans i) : ∃! c, c ∈ chunks ∧ c.Spans i := by
  obtain ⟨c, hc, hstart, hend⟩ := hspans
  refine ⟨c, ⟨hc, hstart, hend⟩, ?_⟩
  rintro d ⟨hd, hstart', hend'⟩
  have hapart : chunks.Pairwise Chunk.Apart := h.end_lt_start.imp Or.inl
  by_contra hne
  rcases hapart.forall hd hc hne with hlt | hlt <;> omega

/-- A chunk consists of the lines of the block that starts at line `i`. -/
structure Chunk.IsBlock (c : Chunk) (path : Text) (lines : List Text) (i : Nat) : Prop where
  path_eq : c.path = path
  content_eq : c.content = Text.unlines (linesFromTo lines i (blockEnd lines i))
  start_eq : c.startLine = i
  end_eq : c.endLine = blockEnd lines i

/-- The chunk of a block spans the lines up to the end of the block. -/
theorem Chunk.IsBlock.spans {c : Chunk} {path : Text} {lines : List Text} {i j : Nat}
    (h : c.IsBlock path lines i) (hstart : i ≤ j) (hend : j ≤ blockEnd lines i) : c.Spans j := by
  rw [Spans, h.start_eq, h.end_eq]
  omega

section Chunks

variable {α : Type} {recognise : Text → Option α} {start : Nat} {lines : List Text}

/-- The chunk of a block that was found is the block of its first line. -/
theorem Chunk.isBlock_ofBlock {b : Block α} (h : b ∈ blocks recognise start lines) (path : Text)
    (kind : Kind) (name : Text) :
    (ofBlock path kind name b.first b.lines).IsBlock path lines b.first := by
  obtain ⟨hlines, hend⟩ := lines_of_mem_blocks h
  refine ⟨rfl, congrArg Text.unlines hlines, rfl, congrArg Nat.cast ?_⟩
  show b.first + b.lines.length - 1 = _
  rw [hend, Nat.add_sub_cancel]

/-- Chunks of blocks, at most one for each block, stand in order. -/
theorem inOrder_filterMap_blocks (path : Text) {chunk? : Block α → Option Chunk}
    (h : ∀ b ∈ blocks recognise start lines, ∀ c, chunk? b = some c → c.IsBlock path lines b.first) :
    InOrder ((blocks recognise start lines).filterMap chunk?) := by
  constructor
  · intro c hc
    obtain ⟨b, hb, hchunk⟩ := List.mem_filterMap.mp hc
    have hblock := h b hb c hchunk
    have hle : b.first ≤ blockEnd lines b.first := Nat.le_add_right _ _
    rw [hblock.start_eq, hblock.end_eq]
    omega
  · rw [List.pairwise_filterMap]
    refine (pairwise_blocks recognise start lines).imp_of_mem fun {b b'} hb hb' hle => ?_
    intro c hc d hd
    have hend := (lines_of_mem_blocks hb).2
    rw [(h b hb c hc).end_eq, (h b' hb' d hd).start_eq]
    omega

end Chunks

end SourceIndex
