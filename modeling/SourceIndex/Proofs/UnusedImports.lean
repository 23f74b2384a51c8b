import SourceIndex.Proofs.Findings
import Mathlib.Data.List.Count

/-!
# Unused imports

Only the search for unused imports looks beyond the line in which a finding is reported, and it looks
at the other chunks of the same file. So the issues of chunks of different files do not depend on each
other, and a name that a line imports is reported exactly if no chunk of its file that holds no imports
mentions it, wherever such a chunk stands among the chunks.
-/

namespace SourceIndex

/-- The message about an unused import is the one about no other finding. -/
theorem Finding.message_eq_unusedImport_iff {f : Finding} {name : Text} :
    f.message = "Potentially unused import: ".toList ++ name ↔ f = .unusedImport name := by
  constructor
  · intro h
    have hhead : f.message.head? = some 'P' := by rw [h]; rfl
    -- the other messages start with other letters
    cases f with
    | unusedImport other => rw [List.append_cancel_left h]
    | marker preview => exact absurd (show some 'C' = some 'P' from hhead) (by decide)
    | consoleLog | anyType | imageWithoutText | clickableContainer => exact absurd hhead (by decide)
  · rintro rfl
    rfl

namespace Issue

/-! ## The chunks of a file -/

/-- A body is the text of a chunk of the file that holds no imports. -/
theorem mem_bodiesOf_iff {chunks : List Chunk} {path body : Text} :
    body ∈ bodiesOf chunks path ↔
      ∃ d ∈ chunks, d.kind ≠ .imports ∧ d.path = path ∧ d.content = body := by
  simp only [bodiesOf, List.mem_map, List.mem_filter, Bool.and_eq_true, bne_iff_ne, beq_iff_eq,
    and_assoc]

/-- The bodies of a file in two lists of chunks are those in the one and those in the other. -/
theorem bodiesOf_append (chunks chunks' : List Chunk) (path : Text) :
    bodiesOf (chunks ++ chunks') path = bodiesOf chunks path ++ bodiesOf chunks' path := by
  rw [bodiesOf, List.filter_append, List.map_append]
  rfl

/-- A file without chunks has no bodies. -/
theorem bodiesOf_eq_nil {chunks : List Chunk} {path : Text} (h : ∀ d ∈ chunks, d.path ≠ path) :
    bodiesOf chunks path = [] := by
  rw [List.eq_nil_iff_forall_not_mem]
  intro body hbody
  obtain ⟨d, hd, -, hpath, -⟩ := mem_bodiesOf_iff.mp hbody
  exact h d hd hpath

/-- Chunks of different files have the issues that they have on their own. -/
theorem inChunks_append {chunks chunks' : List Chunk}
    (h : ∀ c ∈ chunks, ∀ d ∈ chunks', c.path ≠ d.path) :
    inChunks (chunks ++ chunks') = inChunks chunks ++ inChunks chunks' := by
  have hleft : ∀ c ∈ chunks, bodiesOf (chunks ++ chunks') c.path = bodiesOf chunks c.path := by
    intro c hc
    rw [bodiesOf_append, bodiesOf_eq_nil fun d hd => (h c hc d hd).symm, List.append_nil]
  have hright : ∀ d ∈ chunks', bodiesOf (chunks ++ chunks') d.path = bodiesOf chunks' d.path := by
    intro d hd
    rw [bodiesOf_append, bodiesOf_eq_nil fun c hc => h c hc d hd, List.nil_append]
  rw [inChunks, List.flatMap_append]
  exact congrArg₂ _ (List.flatMap_congr fun c hc => by rw [hleft c hc])
    (List.flatMap_congr fun d hd => by rw [hright d hd])

/-! ## Issues in lines -/

/-- The issues in a line of one of the chunks. -/
def inLine (chunks : List Chunk) (c : Chunk) (i : Nat) (line : Text) : List Issue :=
  (findings (bodiesOf chunks c.path) c.kind c.metadata.hasMarkup line).map fun f =>
    { finding := f, path := c.path, line := c.startLine + i }

/-- The issues come in the order of the chunks, then of their lines. -/
theorem inChunks_eq_flatMap (chunks : List Chunk) :
    inChunks chunks = chunks.flatMap fun c =>
      c.content.lines.zipIdx.flatMap fun (line, i) => inLine chunks c i line := by
  refine List.flatMap_congr fun c _ => ?_
  rw [inChunk, Chunk.numberedLines, List.flatMap_map]
  rfl

/-! ## Names that are not used -/

/-- A line of an import chunk binds a name that no chunk of the same file mentions which holds no
imports. -/
structure BindsUnused (chunks : List Chunk) (c : Chunk) (line name : Text) : Prop where
  isImports : c.kind = .imports
  hasImport : "import".toList <:+: line
  bound : name ∈ boundNames line
  unmentioned : ∀ d ∈ chunks, d.kind ≠ .imports → d.path = c.path → ¬ name <:+: d.content

/-- A name is reported as often as the line binds it, unless some body mentions it. -/
theorem count_unusedImports (bodies : List Text) (line name : Text) :
    (unusedImports bodies line).count (.unusedImport name) =
      if ∃ body ∈ bodies, name <:+: body then 0 else (boundNames line).count name := by
  have hinj : Function.Injective Finding.unusedImport := fun _ _ h => Finding.unusedImport.inj h
  rw [unusedImports, List.count_map_of_injective _ _ hinj]
  have hmentioned : (bodies.any fun body => body.contains name) = true ↔
      ∃ body ∈ bodies, name <:+: body := by
    simp only [List.any_eq_true, Text.contains_iff]
  split
  · rename_i h
    rw [List.count_eq_zero, List.mem_filter, hmentioned.mpr h]
    simp
  · rename_i h
    rw [List.count_filter (by rw [Bool.eq_false_iff.mpr (mt hmentioned.mp h)]; rfl)]

/-- The findings in a line report an unused import as often as the search for unused imports does. -/
theorem count_findings (bodies : List Text) (kind : Chunk.Kind) (isMarkup : Bool) (line name : Text) :
    (findings bodies kind isMarkup line).count (.unusedImport name) =
      if kind = .imports ∧ "import".toList <:+: line then
        (unusedImports bodies line).count (.unusedImport name)
      else 0 := by
  have hline : (lineFindings kind line).count (.unusedImport name) = 0 := by
    rw [List.count_eq_zero]
    simp only [lineFindings, List.mem_append, List.mem_ite_nil_right, List.mem_singleton, reduceCtorEq,
      and_false, or_false, not_false_eq_true]
  have hmarkup : (if isMarkup then markupFindings line else []).count (.unusedImport name) = 0 := by
    rw [List.count_eq_zero]
    simp only [markupFindings, List.mem_append, List.mem_ite_nil_right, List.mem_singleton,
      reduceCtorEq, and_false, or_false, not_false_eq_true]
  have hiff : (kind == .imports && line.contains "import".toList) = true ↔
      kind = .imports ∧ "import".toList <:+: line := by
    rw [Bool.and_eq_true, beq_iff_eq, Text.contains_iff]
  rw [findings, List.count_append, List.count_append, hline, hmarkup, Nat.zero_add, Nat.add_zero]
  simp only [hiff]
  split <;> rfl

section InLine

variable (chunks : List Chunk) (c : Chunk) (i : Nat) (line name : Text)

/-- The issues in a line report a name as often as the line binds it if it is not used, and not at
all if it is. -/
theorem count_inLine :
    (BindsUnused chunks c line name →
      (inLine chunks c i line).count ⟨.unusedImport name, c.path, c.startLine + i⟩ =
        (boundNames line).count name) ∧
    (¬ BindsUnused chunks c line name →
      (inLine chunks c i line).count ⟨.unusedImport name, c.path, c.startLine + i⟩ = 0) := by
  have hinj : Function.Injective fun f : Finding => (⟨f, c.path, c.startLine + i⟩ : Issue) :=
    fun _ _ h => congrArg finding h
  have hmap : (inLine chunks c i line).count ⟨.unusedImport name, c.path, c.startLine + i⟩ =
      (findings (bodiesOf chunks c.path) c.kind c.metadata.hasMarkup line).count
        (.unusedImport name) := List.count_map_of_injective _ _ hinj _
  rw [hmap, count_findings, count_unusedImports]
  constructor
  · intro h
    rw [if_pos ⟨h.isImports, h.hasImport⟩, if_neg]
    rintro ⟨body, hbody, hname⟩
    obtain ⟨d, hd, hkind, hpath, rfl⟩ := mem_bodiesOf_iff.mp hbody
    exact h.unmentioned d hd hkind hpath hname
  · intro h
    split
    · rename_i hline
      split
      · rfl
      · rename_i hbodies
        -- all else holds, so the line does not bind the name
        rw [List.count_eq_zero]
        intro hbound
        refine h ⟨hline.1, hline.2, hbound, fun d hd hkind hpath hname => ?_⟩
        exact hbodies ⟨d.content, mem_bodiesOf_iff.mpr ⟨d, hd, hkind, hpath, rfl⟩, hname⟩
    · rfl

end InLine

/-- An unused import is reported exactly for the lines that bind a name which is not used. -/
theorem unusedImport_mem_inChunks_iff {chunks : List Chunk} {path name : Text} {number : Int} :
    ⟨.unusedImport name, path, number⟩ ∈ inChunks chunks ↔
      ∃ c ∈ chunks, ∃ i line, c.content.lines[i]? = some line ∧
        c.path = path ∧ c.startLine + (i : Nat) = number ∧ BindsUnused chunks c line name := by
  rw [inChunks_eq_flatMap]
  simp only [List.mem_flatMap]
  constructor
  · rintro ⟨c, hc, ⟨line, i⟩, hline, hissue⟩
    obtain ⟨f, -, heq⟩ := List.mem_map.mp hissue
    obtain ⟨rfl, rfl, rfl⟩ := Issue.mk.inj heq
    refine ⟨c, hc, i, line, List.mem_zipIdx_iff_getElem?.mp hline, rfl, rfl, ?_⟩
    by_contra hused
    exact List.count_eq_zero.mp ((count_inLine chunks c i line name).2 hused) hissue
  · rintro ⟨c, hc, i, line, hline, rfl, rfl, hunused⟩
    refine ⟨c, hc, (line, i), List.mem_zipIdx_iff_getElem?.mpr hline, ?_⟩
    rw [← List.count_pos_iff, (count_inLine chunks c i line name).1 hunused, List.count_pos_iff]
    exact hunused.bound

/-- A chunk of another file does not use a name. -/
example :
    let other : Chunk := .make "b.ts".toList .function "spare".toList "spare()".toList 0 0
    let imports : Chunk := .make "a.ts".toList .imports "imports".toList
      "import { used, spare } from 'm'".toList 0 0
    let body : Chunk := .make "a.ts".toList .function "f".toList "used()".toList 1 1
    inChunks [other, imports, body] = [⟨.unusedImport "spare".toList, "a.ts".toList, 0⟩] := by
  decide +kernel

/-- Issues are local to files, and unused imports are reported exactly. Chunks of different files have
the issues that they have on their own. The issues come in the order of the chunks, then of their
lines, and each has the path of its chunk and the number of its line. The issues in a line report an
unused import as often as the line binds the name if the chunk holds imports, the line has the word that
starts an import and no other chunk of the file has the name, and otherwise not at all. So a list of
chunks has such an issue exactly if some line binds an unused name there; it is a warning, and no other
finding has its message. -/
theorem inChunks_by_files :
    (∀ chunks chunks' : List Chunk, (∀ c ∈ chunks, ∀ d ∈ chunks', c.path ≠ d.path) →
      inChunks (chunks ++ chunks') = inChunks chunks ++ inChunks chunks') ∧
    (∀ chunks : List Chunk, inChunks chunks = chunks.flatMap fun c =>
      c.content.lines.zipIdx.flatMap fun (line, i) => inLine chunks c i line) ∧
    (∀ (chunks : List Chunk) c i line, (∀ issue ∈ inLine chunks c i line,
        issue.path = c.path ∧ issue.line = c.startLine + (i : Nat)) ∧
      ∀ name,
        (BindsUnused chunks c line name →
          (inLine chunks c i line).count ⟨.unusedImport name, c.path, c.startLine + i⟩ =
            (boundNames line).count name) ∧
        (¬ BindsUnused chunks c line name →
          (inLine chunks c i line).count ⟨.unusedImport name, c.path, c.startLine + i⟩ = 0)) ∧
    (∀ (chunks : List Chunk) path (number : Int) name,
      ⟨.unusedImport name, path, number⟩ ∈ inChunks chunks ↔
        ∃ c ∈ chunks, ∃ i line, c.content.lines[i]? = some line ∧
          c.path = path ∧ c.startLine + (i : Nat) = number ∧ BindsUnused chunks c line name) ∧
    ∀ name, (Finding.unusedImport name).severity = .warning ∧
      ∀ f : Finding, f.message = "Potentially unused import: ".toList ++ name ↔
        f = .unusedImport name := by
  refine ⟨fun _ _ h => inChunks_append h, inChunks_eq_flatMap, fun chunks c i line => ⟨?_, ?_⟩,
    fun _ _ _ _ => unusedImport_mem_inChunks_iff,
    fun _ => ⟨rfl, fun _ => Finding.message_eq_unusedImport_iff⟩⟩
  · intro issue hissue
    obtain ⟨f, -, rfl⟩ := List.mem_map.mp hissue
    exact ⟨rfl, rfl⟩
  · exact count_inLine chunks c i line

end Issue

end SourceIndex
