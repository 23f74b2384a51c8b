import SourceIndex.Proofs.Infix
import SourceIndex.Proofs.Layout
import Mathlib.Tactic.MkIffOfInductiveProp

/-!
# Scripts of self-contained blocks

A block of lines stands for itself if the scan for its end stops at its last line and none of its lines
is an import or declares a type at its start. Such a block is found whole whatever follows it
(`blocksFrom_block`): the lines inside it that look like declarations are skipped, and what stands below
does not move its end. Blank lines are passed. So a script of such blocks and blank lines is cut into
exactly these blocks, and each chunk is the one that the block makes as a file of its own.
-/

namespace SourceIndex

/-! ## The search over lines put together -/

section Blocks

variable {α : Type} {recognise : Text → Option α}

/-- The search goes on below the lines that it skips. -/
theorem blocksFrom_skip (first : Nat) (skipped rest : List Text) :
    blocksFrom recognise skipped.length first (skipped ++ rest) =
      blocksFrom recognise 0 (first + skipped.length) rest := by
  induction skipped generalizing first with
  | nil => rfl
  | cons line skipped ih =>
    rw [List.length_cons, List.cons_append, blocksFrom, ih, Nat.add_assoc, Nat.add_comm 1]

/-- The search passes lines that are not recognised. -/
theorem blocksFrom_pass {passed : List Text} (h : ∀ line ∈ passed, recognise line = none)
    (first : Nat) (rest : List Text) :
    blocksFrom recognise 0 first (passed ++ rest) =
      blocksFrom recognise 0 (first + passed.length) rest := by
  induction passed generalizing first with
  | nil => rfl
  | cons line passed ih =>
    obtain ⟨hline, hpassed⟩ := List.forall_mem_cons.mp h
    rw [List.length_cons, List.cons_append, blocksFrom, hline]
    show blocksFrom recognise 0 (first + 1) (passed ++ rest) = _
    rw [ih hpassed, Nat.add_assoc, Nat.add_comm 1]

/-- A text without recognised lines has no blocks. -/
theorem blocks_eq_nil {lines : List Text} (h : ∀ line ∈ lines, recognise line = none) :
    blocks recognise 0 lines = [] := by
  have hpass := blocksFrom_pass h 0 []
  rw [List.append_nil] at hpass
  exact hpass

/-- A recognised block whose scan ends at its last line is found whole, and the search goes on below
it. -/
theorem blocksFrom_block (recognise : Text → Option α) {line : Text} {rest : List Text} {label : α}
    (hlabel : recognise line = some label)
    (hreach : reachFrom? {} (line :: rest) = some rest.length) (first : Nat) (behind : List Text) :
    blocksFrom recognise 0 first (line :: rest ++ behind) =
      ⟨label, first, line :: rest⟩ ::
        blocksFrom recognise 0 (first + (line :: rest).length) behind := by
  have hend : blockReach (line :: (rest ++ behind)) = rest.length := by
    have hfollowed := reachFrom?_take_append hreach behind
    rw [List.take_succ_cons, List.take_length, List.cons_append] at hfollowed
    rw [blockReach, hfollowed, Option.getD_some]
  rw [List.cons_append, blocksFrom, hlabel]
  show ⟨label, first, line :: (rest ++ behind).take (blockReach (line :: (rest ++ behind)))⟩ ::
    blocksFrom recognise (blockReach (line :: (rest ++ behind))) (first + 1) (rest ++ behind) = _
  rw [hend, List.take_left, blocksFrom_skip, List.length_cons, Nat.add_assoc, Nat.add_comm 1]

end Blocks

namespace Script

/-! ## Lines that declare a value -/

/-- A text that declares a type declares neither a function nor a constant. -/
theorem names_eq_none_of_typeDeclaration? {s : Text} (h : (typeDeclaration? s).isSome = true) :
    functionName? s = none ∧ literalConstant? s = none := by
  obtain ⟨word, r, -, hkeyword, -⟩ := typeDeclaration?_isSome.mp h
  obtain ⟨w, hw, hafter⟩ := List.exists_of_findSome?_eq_some hkeyword
  obtain ⟨t, ht, -⟩ := Option.map_eq_some_iff.mp hafter
  have hstart := Text.eq_append_of_after? ht
  rw [List.mem_cons, List.mem_singleton] at hw
  -- no other keyword starts with the first letter of `interface` or of `type`
  rcases hw with rfl | rfl
  all_goals
    simp only [functionName?, functionDeclaration?, arrowBinding?, functionBinding?,
      literalConstant?, binding?, hstart]
    exact ⟨rfl, rfl⟩

/-- What a line that declares a value is recognised as is kept. -/
theorem DeclaresValue.exists_declaration? {line : Text} (h : DeclaresValue line) :
    ∃ kind name, Script.declaration? line.trim = some (some (kind, name)) := by
  obtain ⟨declared, hdeclared⟩ := Option.isSome_iff_exists.mp h.declaration?
  cases declared with
  | some label => exact ⟨label.1, label.2, hdeclared⟩
  | none =>
    obtain ⟨hfunction, hconstant⟩ :=
      names_eq_none_of_typeDeclaration? (typeDeclaration?_of_passed hdeclared)
    rw [DeclaresValue, hfunction, hconstant] at h
    simp at h

/-! ## Self-contained blocks -/

/-- A line that neither declares a type at its start nor is an import. -/
@[mk_iff]
structure IsPlain (line : Text) : Prop where
  no_newline : '\n' ∉ line
  not_type : typeDeclaration? line = none
  not_import : startsImport line.trim = false

instance (line : Text) : Decidable (IsPlain line) :=
  decidable_of_iff' _ (isPlain_iff line)

/-- A blank line. -/
def IsBlankLine (line : Text) : Prop :=
  line.isBlank = true ∧ '\n' ∉ line

instance (line : Text) : Decidable (IsBlankLine line) :=
  inferInstanceAs (Decidable (_ ∧ _))

/-- A block that stands for itself: its first line declares a function or a constant, it is complete
at its last line and not before, and no line is an import or starts by declaring a type. -/
@[mk_iff]
structure IsSelfContained (block : List Text) : Prop where
  declares : ∃ line ∈ block.head?, DeclaresValue line
  end_eq : blockEnd block 0 = block.length - 1
  completes : CompletesAt block 0 (blockEnd block 0)
  plain : ∀ line ∈ block, IsPlain line

instance (line : Text) : Decidable (DeclaresValue line) :=
  inferInstanceAs (Decidable (_ ∨ _))

instance (block : List Text) : Decidable (IsSelfContained block) :=
  decidable_of_iff' _ (isSelfContained_iff block)

theorem IsSelfContained.length_pos {block : List Text} (h : IsSelfContained block) :
    0 < block.length :=
  Nat.zero_lt_of_lt h.completes.2.1

/-- A block of a script and the blank lines below it. -/
structure Part where
  block : List Text
  blanks : List Text

namespace Part

/-- The lines of a part. -/
def lines (part : Part) : List Text :=
  part.block ++ part.blanks

/-- The block of a part stands for itself, and what is below it is blank. -/
@[mk_iff]
structure WellFormed (part : Part) : Prop where
  selfContained : IsSelfContained part.block
  blank : ∀ line ∈ part.blanks, IsBlankLine line

instance (part : Part) : Decidable part.WellFormed :=
  decidable_of_iff' _ (wellFormed_iff part)

end Part

/-- The lines of a script of parts below some first lines. -/
def linesOf (lead : List Text) (parts : List Part) : List Text :=
  lead ++ parts.flatMap Part.lines

/-- The blocks of parts with the numbers of their first lines, if the first part starts at line
`first`. -/
def placedFrom : (first : Nat) → List Part → List (Nat × List Text)
  | _, [] => []
  | first, part :: rest => (first, part.block) :: placedFrom (first + part.lines.length) rest

/-- A chunk belongs to a block that stands in a script at a line: it has the text and the lines of
the block, and the block as a file of its own is one chunk of the same kind and name. -/
structure IsChunkOf (extensions : List Text) (path : Text) (lines : List Text)
    (placed : Nat × List Text) (c : Chunk) : Prop where
  prefix_drop : placed.2 <+: lines.drop placed.1
  path_eq : c.path = path
  content_eq : c.content = Text.unlines placed.2
  start_eq : c.startLine = placed.1
  end_eq : c.endLine = placed.1 + placed.2.length - 1
  alone : ∃ d, (chunker extensions).chunk? path (Text.unlines placed.2) = some [d] ∧
    d.kind = c.kind ∧ d.name = c.name

/-- A blank line declares nothing. -/
theorem IsBlankLine.declaration? {line : Text} (h : IsBlankLine line) :
    Script.declaration? line.trim = none := by
  rw [Text.trim_eq_nil h.1]
  rfl

/-- A blank line is plain. -/
theorem IsBlankLine.plain {line : Text} (h : IsBlankLine line) : IsPlain line where
  no_newline := h.2
  not_type := by
    rw [← Option.not_isSome_iff_eq_none]
    intro htype
    have htrim := typeDeclaration?_trim htype
    rw [Text.trim_eq_nil h.1] at htrim
    cases htrim
  not_import := by
    rw [Text.trim_eq_nil h.1]
    rfl

/-- The lines of a script of parts are plain. -/
theorem plain_linesOf {lead : List Text} {parts : List Part}
    (hlead : ∀ line ∈ lead, IsBlankLine line) (hparts : ∀ part ∈ parts, part.WellFormed) :
    ∀ line ∈ linesOf lead parts, IsPlain line := by
  intro line hline
  rcases List.mem_append.mp hline with hline | hline
  · exact (hlead line hline).plain
  · obtain ⟨part, hpart, hline⟩ := List.mem_flatMap.mp hline
    rcases List.mem_append.mp hline with hline | hline
    · exact (hparts part hpart).selfContained.plain line hline
    · exact ((hparts part hpart).blank line hline).plain

/-! ## The functions and constants of plain lines -/

/-- The chunks of the functions and constants in lines of which the first has the number `first`. -/
def valuesFrom (path : Text) (first : Nat) (lines : List Text) : List Chunk :=
  (blocksFrom (fun line => declaration? line.trim) 0 first lines).filterMap fun b =>
    b.label.map fun (kind, name) => .ofBlock path kind name b.first b.lines

theorem valuesFrom_blanks {blanks : List Text} (h : ∀ line ∈ blanks, IsBlankLine line)
    (path : Text) (first : Nat) (rest : List Text) :
    valuesFrom path first (blanks ++ rest) = valuesFrom path (first + blanks.length) rest := by
  rw [valuesFrom, blocksFrom_pass fun line hline => (h line hline).declaration?]
  rfl

/-- A block whose first line declares a function or a constant, and at whose last line the scan for its
end stops, makes one chunk. -/
theorem valuesFrom_block {line name : Text} {rest : List Text} {kind : Chunk.Kind}
    (hlabel : declaration? line.trim = some (some (kind, name)))
    (hreach : reachFrom? {} (line :: rest) = some rest.length) (path : Text) (first : Nat)
    (behind : List Text) : valuesFrom path first (line :: rest ++ behind) =
      .ofBlock path kind name first (line :: rest) ::
        valuesFrom path (first + (line :: rest).length) behind := by
  rw [valuesFrom, blocksFrom_block (fun line => declaration? line.trim) hlabel hreach]
  rfl

/-- A block that stands for itself makes the same chunk wherever it stands, and nothing else. -/
theorem IsSelfContained.exists_valuesFrom {block : List Text} (h : IsSelfContained block) :
    ∃ kind name, ∀ path first behind, valuesFrom path first (block ++ behind) =
      .ofBlock path kind name first block :: valuesFrom path (first + block.length) behind := by
  obtain ⟨line, hhead, hdeclares⟩ := h.declares
  obtain ⟨kind, name, hlabel⟩ := hdeclares.exists_declaration?
  obtain ⟨rest, rfl⟩ := List.head?_eq_some_iff.mp hhead
  have hreach := reachFrom?_of_completesAt h.completes
  rw [h.end_eq] at hreach
  exact ⟨kind, name, valuesFrom_block hlabel hreach⟩

theorem importRun?_of_plain {lines : List Text} (h : ∀ line ∈ lines, IsPlain line) :
    importRun? lines = none := by
  rw [importRun?, Option.map_eq_none_iff, List.findIdx?_eq_none_iff]
  exact fun line hline => (h line hline).not_import

theorem valueChunks_of_plain (path : Text) {lines : List Text} (h : ∀ line ∈ lines, IsPlain line) :
    valueChunks path lines = valuesFrom path 0 lines := by
  rw [valueChunks, bodyStart, importRun?_of_plain h]
  rfl

/-- A script of plain lines is cut into its functions and constants, if it has any. -/
theorem chunk?_of_plain (extensions : List Text) (path : Text) {lines : List Text}
    (h : ∀ line ∈ lines, IsPlain line) (hne : valuesFrom path 0 lines ≠ []) :
    (chunker extensions).chunk? path (Text.unlines lines) = some (valuesFrom path 0 lines) := by
  have hnil : lines ≠ [] := by
    rintro rfl
    exact hne rfl
  have hlines : (Text.unlines lines).lines = lines :=
    Text.lines_unlines hnil fun line hline => (h line hline).no_newline
  have hblank : (Text.unlines lines).isBlank = false := by
    rw [← Bool.not_eq_true]
    intro hblank
    -- the lines of a blank text are blank, so they would declare nothing
    have hline : ∀ line ∈ lines, IsBlankLine line := by
      intro line hline
      refine ⟨List.all_eq_true.mpr fun c hc => ?_, (h line hline).no_newline⟩
      rw [← hlines] at hline
      exact List.all_eq_true.mp hblank c ((Text.infix_of_mem_splitOn hline).subset hc)
    have hpass := valuesFrom_blanks hline path 0 []
    rw [List.append_nil] at hpass
    exact hne hpass
  have htypes : blocks typeDeclaration? 0 lines = [] :=
    blocks_eq_nil fun line hline => (h line hline).not_type
  rw [chunk?_chunker extensions path hblank, hlines, importChunks, importRun?_of_plain h, typeChunks,
    htypes, valueChunks_of_plain path h]
  exact congrArg some (if_neg hne)

/-- The first chunk of lines that start with a self-contained block belongs to this block. -/
theorem IsSelfContained.exists_isChunkOf {block : List Text} (h : IsSelfContained block)
    (extensions : List Text) (path : Text) (front behind : List Text) :
    ∃ c, IsChunkOf extensions path (front ++ (block ++ behind)) (front.length, block) c ∧
      valuesFrom path front.length (block ++ behind) =
        c :: valuesFrom path (front.length + block.length) behind := by
  obtain ⟨kind, name, hvalues⟩ := h.exists_valuesFrom
  have halone : valuesFrom path 0 block = [.ofBlock path kind name 0 block] := by
    have hblock := hvalues path 0 []
    rwa [List.append_nil] at hblock
  have hpos : 0 < block.length := h.length_pos
  refine ⟨.ofBlock path kind name front.length block,
    ⟨?_, rfl, rfl, rfl, ?_, .ofBlock path kind name 0 block, ?_, rfl, rfl⟩,
    hvalues path front.length behind⟩
  · show block <+: (front ++ (block ++ behind)).drop front.length
    rw [List.drop_left]
    exact List.prefix_append block behind
  · show ((front.length + block.length - 1 : Nat) : Int) = (front.length : Int) + block.length - 1
    omega
  · rw [chunk?_of_plain extensions path h.plain (by simp [halone]), halone]

/-- The functions and constants of parts belong to their blocks, one to each and in their order. -/
theorem forall₂_valuesFrom (extensions : List Text) (path : Text) (front : List Text)
    {parts : List Part} (h : ∀ part ∈ parts, part.WellFormed) :
    List.Forall₂ (IsChunkOf extensions path (linesOf front parts))
      (placedFrom front.length parts) (valuesFrom path front.length (parts.flatMap Part.lines)) := by
  induction parts generalizing front with
  | nil => exact .nil
  | cons part rest ih =>
    obtain ⟨hpart, hrest⟩ := List.forall_mem_cons.mp h
    have hlines : (part :: rest).flatMap Part.lines =
        part.block ++ (part.blanks ++ rest.flatMap Part.lines) := by
      rw [List.flatMap_cons, Part.lines, List.append_assoc]
    obtain ⟨c, hc, hvalues⟩ := hpart.selfContained.exists_isChunkOf extensions path front
      (part.blanks ++ rest.flatMap Part.lines)
    -- for the other parts this one belongs to the lines above them
    have hothers := ih (front ++ part.lines) hrest
    have hfile : linesOf (front ++ part.lines) rest = linesOf front (part :: rest) :=
      List.append_assoc _ _ _
    rw [hfile, List.length_append] at hothers
    rw [valuesFrom_blanks hpart.blank, Nat.add_assoc, ← List.length_append] at hvalues
    rw [hlines, hvalues]
    rw [← hlines] at hc
    exact .cons hc hothers

/-- A script of at least one self-contained block, with blank lines above, between and below the
blocks, is cut into exactly these blocks in their order. The chunk of a block has its text, stands where
the block stands in the script, and has the kind and the name of the one chunk into which the block is
cut as a file of its own. -/
theorem chunk?_of_parts (extensions : List Text) (path : Text) {lead : List Text} {parts : List Part}
    (hne : parts ≠ []) (hlead : ∀ line ∈ lead, IsBlankLine line)
    (hparts : ∀ part ∈ parts, part.WellFormed) :
    ∃ chunks,
      (chunker extensions).chunk? path (Text.unlines (linesOf lead parts)) = some chunks ∧
      List.Forall₂ (IsChunkOf extensions path (linesOf lead parts)) (placedFrom lead.length parts)
        chunks := by
  have hchunks := forall₂_valuesFrom extensions path lead hparts
  have hvalues : valuesFrom path 0 (linesOf lead parts) =
      valuesFrom path lead.length (parts.flatMap Part.lines) := by
    rw [linesOf, valuesFrom_blanks hlead, Nat.zero_add]
  rw [← hvalues] at hchunks
  refine ⟨_, chunk?_of_plain extensions path (plain_linesOf hlead hparts) ?_, hchunks⟩
  intro hnil
  obtain ⟨part, rest, rfl⟩ := List.exists_cons_of_ne_nil hne
  rw [hnil] at hchunks
  cases hchunks

/-- A component with a function inside it, and a constant below two blank lines. -/
theorem chunk?_of_parts_of_component :
    let component : List Text := ["export function App() \x7b".toList,
      "  const onClick = () => \x7b".toList, "  \x7d;".toList, "\x7d".toList]
    let constant : List Text := ["const sizes = [".toList, "  1, '['".toList, "];".toList]
    let parts : List Part := [⟨component, ["".toList, "  ".toList]⟩, ⟨constant, []⟩]
    parts ≠ [] ∧ (∀ line ∈ ["".toList], IsBlankLine line) ∧ (∀ part ∈ parts, part.WellFormed) ∧
    ∃ chunks,
      (chunker []).chunk? "a.ts".toList (Text.unlines (linesOf ["".toList] parts)) = some chunks ∧
      chunks.map (fun c => (c.startLine, c.endLine, c.kind, c.name)) =
        [(1, 4, .component, "App".toList), (7, 9, .constant, "sizes".toList)] ∧
      List.Forall₂ (IsChunkOf [] "a.ts".toList (linesOf ["".toList] parts))
        [(1, component), (7, constant)] chunks := by
  intro component constant parts
  have hne : parts ≠ [] := List.cons_ne_nil _ _
  have hlead : ∀ line ∈ ["".toList], IsBlankLine line := by decide +kernel
  have hparts : ∀ part ∈ parts, part.WellFormed := by decide +kernel
  obtain ⟨chunks, hread, hchunks⟩ :=
    chunk?_of_parts [] "a.ts".toList hne hlead hparts
  have hshown : ((chunker []).chunk? "a.ts".toList (Text.unlines (linesOf ["".toList] parts))).map
      (List.map fun c => (c.startLine, c.endLine, c.kind, c.name)) =
        some [(1, 4, .component, "App".toList), (7, 9, .constant, "sizes".toList)] := by
    decide +kernel
  rw [hread] at hshown
  exact ⟨hne, hlead, hparts, chunks, hread, Option.some.inj hshown, hchunks⟩

end Script

end SourceIndex
