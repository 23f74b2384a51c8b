import SourceIndex.Code.Block

/-!
# Where blocks lie

A block consists of lines of the file from its first line on, which is recognised, and the blocks
that are collected do not overlap.
-/

namespace SourceIndex

/-- What is recognised at line `i` of a text reaches over lines that the text has: the block
consists of the lines from line `i` on, and its label is read off the first of them. -/
structure Block.LiesIn {α : Type} (b : Block α) (recognise : Text → Option α) (i : Nat)
    (lines : List Text) : Prop where
  recognised : ∃ line, lines[i]? = some line ∧ b.lines.head? = some line ∧
    recognise line = some b.label
  hstart : b.lines <+: lines.drop i

namespace Block

variable {α : Type} {b : Block α} {recognise : Text → Option α} {i : Nat} {lines : List Text}

/-- A block is not empty and ends within the text. -/
theorem LiesIn.length_bounds (h : b.LiesIn recognise i lines) :
    0 < b.lines.length ∧ i + b.lines.length ≤ lines.length := by
  obtain ⟨line, hline, hhead, -⟩ := h.recognised
  have hlen := h.hstart.length_le
  rw [List.length_drop] at hlen
  obtain ⟨hlt, -⟩ := List.getElem?_eq_some_iff.mp hline
  refine ⟨?_, by omega⟩
  rw [List.length_pos_iff]
  rintro hnil
  rw [hnil] at hhead
  cases hhead

/-- A block lies one line further down in a text with one line more in front. -/
theorem LiesIn.cons (h : b.LiesIn recognise i lines) (line : Text) :
    b.LiesIn recognise (i + 1) (line :: lines) :=
  ⟨h.recognised, h.hstart⟩

end Block

variable {α : Type} {recognise : Text → Option α}

/-- Every block found lies in the given lines, below those that are skipped. -/
theorem liesIn_of_mem_blocksFrom {skip first : Nat} {lines : List Text} {b : Block α}
    (h : b ∈ blocksFrom recognise skip first lines) :
    ∃ i, skip ≤ i ∧ b.first = first + i ∧ b.LiesIn recognise i lines := by
  fun_induction blocksFrom recognise skip first lines with
  | case1 => cases h
  | case2 skip first line rest ih =>
    obtain ⟨i, hskip, hfirst, hlies⟩ := ih h
    exact ⟨i + 1, by omega, by omega, hlies.cons line⟩
  | case3 first line rest hnone ih =>
    obtain ⟨i, -, hfirst, hlies⟩ := ih h
    exact ⟨i + 1, by omega, by omega, hlies.cons line⟩
  | case4 first line rest label hlabel reach ih =>
    rcases List.mem_cons.mp h with rfl | h
    · exact ⟨0, Nat.le_refl 0, rfl, ⟨line, rfl, rfl, hlabel⟩,
        (List.prefix_cons_inj line).mpr (List.take_prefix reach rest)⟩
    · obtain ⟨i, -, hfirst, hlies⟩ := ih h
      exact ⟨i + 1, by omega, by omega, hlies.cons line⟩

/-- Of two blocks found, the second starts below the end of the first. -/
theorem pairwise_blocksFrom (recognise : Text → Option α) (skip first : Nat) (lines : List Text) :
    (blocksFrom recognise skip first lines).Pairwise
      fun b b' => b.first + b.lines.length ≤ b'.first := by
  fun_induction blocksFrom recognise skip first lines with
  | case1 => exact .nil
  | case2 skip first line rest ih => exact ih
  | case3 first line rest hnone ih => exact ih
  | case4 first line rest label hlabel reach ih =>
    refine List.pairwise_cons.mpr ⟨fun b hb => ?_, ih⟩
    -- the search goes on below the lines that the block takes
    obtain ⟨i, hskip, hfirst, -⟩ := liesIn_of_mem_blocksFrom hb
    show first + (line :: rest.take reach).length ≤ b.first
    rw [List.length_cons, List.length_take]
    omega

/-- Every block from line `start` on lies in the lines where it says. -/
theorem liesIn_of_mem_blocks {start : Nat} {lines : List Text} {b : Block α}
    (h : b ∈ blocks recognise start lines) :
    start ≤ b.first ∧ b.LiesIn recognise b.first lines := by
  obtain ⟨i, -, hfirst, ⟨line, hline, hhead, hlabel⟩, hstart⟩ := liesIn_of_mem_blocksFrom h
  rw [List.getElem?_drop, ← hfirst] at hline
  rw [List.drop_drop, ← hfirst] at hstart
  exact ⟨by omega, ⟨line, hline, hhead, hlabel⟩, hstart⟩

/-- The blocks of a text are in order and do not overlap. -/
theorem pairwise_blocks (recognise : Text → Option α) (start : Nat) (lines : List Text) :
    (blocks recognise start lines).Pairwise fun b b' => b.first + b.lines.length ≤ b'.first :=
  pairwise_blocksFrom recognise 0 start (lines.drop start)

/-- Each block of a text starts below the first line of the one before. -/
theorem pairwise_first_blocks (recognise : Text → Option α) (start : Nat) (lines : List Text) :
    (blocks recognise start lines).Pairwise fun b b' => b.first < b'.first := by
  refine (pairwise_blocks recognise start lines).imp_of_mem fun hb _ hle => ?_
  obtain ⟨hpos, -⟩ := (liesIn_of_mem_blocks hb).2.length_bounds
  omega

end SourceIndex
