import SourceIndex.Chunk.Contract
import SourceIndex.Proofs.Block
import SourceIndex.Proofs.Text

/-!
# What the chunk contract asks for

Chunks meet the contract exactly if each has a name and lies within the file and no two share an
identifier. An identifier may be anything, but that of a chunk which `Chunk.make` made ends in its first
line, so such chunks have different identifiers if they start at different lines. This is so for chunks
of blocks, which do not overlap.
-/

namespace SourceIndex

namespace Chunk

/-! ## Chunks whose fields are computed -/

/-- The number of lines that a chunk spans. -/
def lineCount (c : Chunk) : Int :=
  c.endLine - c.startLine + 1

/-- The chunk is what `make` makes at its place of the file with the path. -/
def MadeFor (c : Chunk) (path : Text) : Prop :=
  c = make path c.kind c.name c.content c.startLine c.endLine

section MadeFor

variable {c : Chunk} {path : Text} (h : c.MadeFor path)
include h

theorem MadeFor.path_eq : c.path = path :=
  congrArg Chunk.path h

theorem MadeFor.id_eq : c.id = idOf path c.name c.startLine :=
  congrArg Chunk.id h

theorem MadeFor.complexity_eq : c.metadata.complexity = complexity c.content :=
  congrArg (·.metadata.complexity) h

theorem MadeFor.lineCount_eq : c.metadata.lineCount = c.lineCount :=
  congrArg (·.metadata.lineCount) h

/-- Chunks of one file with one identifier start at one line. -/
theorem MadeFor.startLine_eq {d : Chunk} (h' : d.MadeFor path) (hid : c.id = d.id) :
    c.startLine = d.startLine := by
  rw [h.id_eq, h'.id_eq] at hid
  exact Text.eq_of_append_colon_eq hid

end MadeFor

/-! ## Breaches -/

/-- A chunk has a name and lies within a file with `lineCount` lines. -/
structure Fits (c : Chunk) (lineCount : Int) : Prop where
  named : c.name.isBlank = false
  start_nonneg : 0 ≤ c.startLine
  start_le_end : c.startLine ≤ c.endLine
  end_le : c.endLine ≤ max 0 (lineCount - 1)

/-- The chunk of lines of the file fits it if it has a name. -/
theorem fits_ofBlock {path name : Text} {kind : Kind} {first : Nat} {lines : List Text}
    {lineCount : Nat} (hname : name.isBlank = false) (hlines : 0 < lines.length)
    (hlast : first + lines.length ≤ lineCount) :
    (ofBlock path kind name first lines).Fits lineCount where
  named := hname
  start_nonneg := Int.natCast_nonneg first
  start_le_end := by
    show (first : Int) ≤ (first + lines.length - 1 : Nat)
    omega
  end_le := by
    show ((first + lines.length - 1 : Nat) : Int) ≤ _
    omega

/-- The chunk of a block fits the file if it has a name. -/
theorem fits_of_mem_blocks {α : Type} {recognise : Text → Option α} {start : Nat}
    {lines : List Text} {b : Block α} (hb : b ∈ blocks recognise start lines) {path name : Text}
    {kind : Kind} (hname : name.isBlank = false) :
    (ofBlock path kind name b.first b.lines).Fits lines.length := by
  obtain ⟨-, hlies⟩ := liesIn_of_mem_blocks hb
  obtain ⟨hpos, hlast⟩ := hlies.length_bounds
  exact fits_ofBlock hname hpos hlast

/-- The chunk of a whole file fits it if the file has a name. -/
theorem fits_wholeFile {path : Text} (kind : Kind) (content : Text)
    (hname : (Path.baseName path).isBlank = false) :
    (wholeFile path kind content).Fits content.lines.length where
  named := hname
  start_nonneg := Int.le_refl 0
  start_le_end := Int.natCast_nonneg _
  end_le := by
    show ((content.lines.length - 1 : Nat) : Int) ≤ _
    omega

/-- A chunk breaks nothing exactly if it fits the file and its identifier is not taken. -/
theorem violation?_eq_none_iff {c : Chunk} {lineCount : Int} {seen : List Text} :
    c.violation? lineCount seen = none ↔ c.Fits lineCount ∧ c.id ∉ seen := by
  constructor
  · intro h
    unfold violation? at h
    -- every guard that holds reports its breach
    split at h
    · cases h
    rename_i hname
    split at h
    · cases h
    rename_i hstart
    split at h
    · cases h
    rename_i hend
    split at h
    · cases h
    rename_i hlast
    split at h
    · cases h
    rename_i hseen
    rw [Bool.not_eq_true] at hname
    exact ⟨⟨hname, by omega, by omega, by omega⟩, by simpa using hseen⟩
  · rintro ⟨⟨hname, hstart, hend, hlast⟩, hseen⟩
    rw [violation?, if_neg (by simp [hname]), if_neg (by omega), if_neg (by omega),
      if_neg (by omega), if_neg (by simpa using hseen)]

/-- Chunks break nothing exactly if each fits the file and their identifiers are not taken. -/
theorem violationAfter?_eq_none_iff {lineCount : Int} {seen : List Text} {chunks : List Chunk} :
    violationAfter? lineCount seen chunks = none ↔
      (∀ c ∈ chunks, c.Fits lineCount) ∧ (chunks.map id).Nodup ∧ ∀ c ∈ chunks, c.id ∉ seen := by
  induction chunks generalizing seen with
  | nil => simp [violationAfter?]
  | cons c rest ih =>
    rw [violationAfter?, List.forall_mem_cons, List.map_cons, List.nodup_cons, List.forall_mem_cons]
    cases hviolation : c.violation? lineCount seen with
    | some v =>
      have hne : ¬ (c.Fits lineCount ∧ c.id ∉ seen) := by
        rw [← violation?_eq_none_iff, hviolation]
        simp
      constructor
      · intro h
        cases h
      · rintro ⟨⟨hfits, -⟩, -, hseen, -⟩
        exact absurd ⟨hfits, hseen⟩ hne
    | none =>
      obtain ⟨hfits, hseen⟩ := violation?_eq_none_iff.mp hviolation
      -- the identifier of the chunk is taken for all chunks behind it
      show violationAfter? lineCount (c.id :: seen) rest = none ↔ _
      rw [ih]
      simp only [List.mem_cons, List.mem_map, not_or, not_exists, not_and]
      constructor
      · rintro ⟨hrest, hnodup, hnew⟩
        exact ⟨⟨hfits, hrest⟩, ⟨fun d hd => (hnew d hd).1, hnodup⟩, hseen, fun d hd => (hnew d hd).2⟩
      · rintro ⟨⟨-, hrest⟩, ⟨hown, hnodup⟩, -, hold⟩
        exact ⟨hrest, hnodup, fun d hd => ⟨hown d hd, hold d hd⟩⟩

end Chunk

/-- Chunks meet the contract exactly if each fits the file and no two share an identifier. -/
theorem contractViolation?_eq_none_iff {chunks : List Chunk} {lineCount : Int} :
    contractViolation? chunks lineCount = none ↔
      (∀ c ∈ chunks, c.Fits lineCount) ∧ (chunks.map Chunk.id).Nodup := by
  rw [contractViolation?, Chunk.violationAfter?_eq_none_iff]
  simp

/-- The identifiers that chunks carry count, not those that their places would give them. -/
example :
    let c := Chunk.make "a.ts".toList .function "f".toList "x".toList 0 0
    contractViolation? [{ c with id := "a".toList }, { c with id := "b".toList }] 1 = none ∧
      contractViolation? [c, { c with name := "g".toList }] 1 = some (.duplicateId c.id) := by
  decide

/-- Chunks of blocks of a text, at most one for each block, start at different lines. -/
theorem pairwise_filterMap_blocks {α : Type} (recognise : Text → Option α) (start : Nat)
    (lines : List Text) {chunk? : Block α → Option Chunk}
    (h : ∀ b c, chunk? b = some c → c.startLine = b.first) :
    ((blocks recognise start lines).filterMap chunk?).Pairwise
      fun c d => c.startLine ≠ d.startLine := by
  rw [List.pairwise_filterMap]
  refine (pairwise_first_blocks recognise start lines).imp fun {b b'} hlt => ?_
  intro c hc d hd
  rw [h b c hc, h b' d hd]
  omega

/-- Chunks of one file that start at different lines have different identifiers. -/
theorem nodup_ids_of_pairwise_ne {chunks : List Chunk} {path : Text}
    (hmade : ∀ c ∈ chunks, c.MadeFor path)
    (h : chunks.Pairwise fun c d => c.startLine ≠ d.startLine) : (chunks.map Chunk.id).Nodup := by
  rw [List.Nodup, List.pairwise_map]
  exact h.imp_of_mem fun hc hd hne heq => hne ((hmade _ hc).startLine_eq (hmade _ hd) heq)

end SourceIndex
