import SourceIndex.Chunker.Stylesheet
import SourceIndex.Proofs.Coverage
import SourceIndex.Proofs.Script

/-!
# How scripts and stylesheets are cut

A script is cut in three scans that look at lines in different ways: imports, interfaces and types at the
start of a line, functions and constants below the imports wherever they are indented to. `Script.Layout`
says what the chunks of each scan are and which lines they cover. The second scan misses no declaration.
The third one passes over what lies in the block of an interface or a type, also of one that is indented,
and misses no other declaration below the imports. A stylesheet is cut in one scan for rule sets.
-/

namespace SourceIndex

/-- A chunker that goes by extensions cuts a file that is not blank. -/
theorem Chunker.chunk?_ofExtensions (name : Text) (extensions : List Text)
    (chunks : (path content : Text) → List Chunk) (path : Text) {content : Text}
    (h : content.isBlank = false) :
    (ofExtensions name extensions chunks).chunk? path content = some (chunks path content) := by
  show some (if content.isBlank then [] else chunks path content) = _
  rw [h, if_neg Bool.false_ne_true]

namespace Script

/-! ## The imports -/

/-- Line `i` stands below the imports of a script. -/
def BelowImports (lines : List Text) (i : Nat) : Prop :=
  ∀ first last, importRun? lines = some (first, last) → last < i

theorem bodyStart_le_iff {lines : List Text} {i : Nat} :
    bodyStart lines ≤ i ↔ BelowImports lines i := by
  unfold bodyStart BelowImports
  split
  · rename_i hnone
    simp [hnone]
  · rename_i first last hrun
    rw [hrun]
    constructor
    · rintro hle _ _ ⟨⟩
      exact hle
    · intro h
      exact h first last rfl

/-- The chunk of the imports spans their run. -/
theorem importChunks_of_run (path : Text) {lines : List Text} {first last : Nat}
    (h : importRun? lines = some (first, last)) :
    ∃ c, importChunks path lines = [c] ∧ c.kind = .imports ∧ c.startLine = first ∧
      c.endLine = last := by
  obtain ⟨hfirst, hlast, -⟩ := importRun?_bounds h
  refine ⟨_, by rw [importChunks, h], rfl, rfl, congrArg Nat.cast ?_⟩
  show first + ((lines.drop first).take (last + 1 - first)).length - 1 = last
  rw [List.length_take, List.length_drop]
  omega

/-! ## The declarations -/

/-- A line declares a function or binds one, or binds a constant to a literal, apart from the blanks at
its ends. -/
def DeclaresValue (line : Text) : Prop :=
  (functionName? line.trim).isSome = true ∨ (literalConstant? line.trim).isSome = true

/-- A line that declares a value is recognised as a declaration. -/
theorem DeclaresValue.declaration? {line : Text} (h : DeclaresValue line) :
    (declaration? line.trim).isSome = true := by
  unfold Script.declaration?
  split
  · rfl
  · split
    · rfl
    · rename_i hfunction
      rw [DeclaresValue, hfunction] at h
      rw [Option.isSome_map]
      exact h.resolve_left (by simp)

/-- A declaration that is not kept is one of a type. -/
theorem typeDeclaration?_of_passed {line : Text} (h : Script.declaration? line = some none) :
    (typeDeclaration? line).isSome = true := by
  unfold Script.declaration? at h
  split at h
  · assumption
  · split at h
    · cases h
    · obtain ⟨_, -, heq⟩ := Option.map_eq_some_iff.mp h
      cases heq

/-- A type declaration is one of an interface or of a type. -/
theorem kind_of_typeDeclaration? {s name : Text} {kind : Chunk.Kind}
    (h : typeDeclaration? s = some (kind, name)) : kind = .interfaceDecl ∨ kind = .typeDecl := by
  simp only [typeDeclaration?, Option.bind_eq_bind, Option.bind_eq_some_iff, Option.some.injEq,
    Prod.mk.injEq] at h
  obtain ⟨_, -, _, -, _, -, rfl, -⟩ := h
  split
  · exact .inl rfl
  · exact .inr rfl

/-- A declaration that is kept is one of a component, a hook, a function or a constant. -/
theorem kind_of_declaration? {line name : Text} {kind : Chunk.Kind}
    (h : Script.declaration? line = some (some (kind, name))) :
    kind ∈ [.component, .hook, .function, .constant] := by
  unfold Script.declaration? at h
  split at h
  · cases h
  split at h
  · cases h
    unfold functionKind
    split
    · decide
    · split <;> decide
  · obtain ⟨_, -, heq⟩ := Option.map_eq_some_iff.mp h
    cases heq
    decide

/-! ## The chunks -/

/-- The chunks of a script: one for its imports, if it has any, those of its interfaces and types,
and those of its functions and constants below the imports. Types are in order, and so are functions
and constants, and each is the block of a line that declares it. Every line that declares a type
lies in exactly one type. Every line below the imports that declares a function or a constant lies
in one of them or in the block of a line that declares a type. No two chunks start at one line. -/
structure Layout (path : Text) (lines : List Text) (imports types values : List Chunk) : Prop where
  imports_of_run : ∀ first last, importRun? lines = some (first, last) →
    ∃ c, imports = [c] ∧ c.kind = .imports ∧ c.startLine = first ∧ c.endLine = last
  imports_eq_nil : importRun? lines = none → imports = []
  types_inOrder : InOrder types
  types_declared : ∀ c ∈ types, (c.kind = .interfaceDecl ∨ c.kind = .typeDecl) ∧
    ∃ i line, lines[i]? = some line ∧ typeDeclaration? line = some (c.kind, c.name) ∧
      c.IsBlock path lines i
  types_cover : ∀ i line, lines[i]? = some line → (typeDeclaration? line).isSome = true →
    ∃! c, c ∈ types ∧ c.Spans i
  values_inOrder : InOrder values
  values_declared : ∀ c ∈ values, c.kind ∈ [.component, .hook, .function, .constant] ∧
    ∃ i line, BelowImports lines i ∧ lines[i]? = some line ∧
      declaration? line.trim = some (some (c.kind, c.name)) ∧ c.IsBlock path lines i
  values_cover : ∀ i line, BelowImports lines i → lines[i]? = some line → DeclaresValue line →
    (∃ c ∈ values, c.Spans i) ∨ ∃ j line', j ≤ i ∧ i ≤ blockEnd lines j ∧
      lines[j]? = some line' ∧ (typeDeclaration? line'.trim).isSome = true
  starts_ne : (imports ++ types ++ values).Pairwise fun c d => c.startLine ≠ d.startLine

theorem inOrder_typeChunks (path : Text) (lines : List Text) : InOrder (typeChunks path lines) := by
  rw [typeChunks, ← List.filterMap_eq_map]
  refine inOrder_filterMap_blocks path fun b hb c hc => ?_
  cases hc
  exact Chunk.isBlock_ofBlock hb path _ _

theorem inOrder_valueChunks (path : Text) (lines : List Text) :
    InOrder (valueChunks path lines) := by
  refine inOrder_filterMap_blocks path fun b hb c hc => ?_
  obtain ⟨label, -, rfl⟩ := Option.map_eq_some_iff.mp hc
  exact Chunk.isBlock_ofBlock hb path _ _

/-- The chunks of the three scans of a script are laid out in this way. -/
theorem layout_chunks (path : Text) (lines : List Text) :
    Layout path lines (importChunks path lines) (typeChunks path lines)
      (valueChunks path lines) where
  imports_of_run first last h := importChunks_of_run path h
  imports_eq_nil h := by rw [importChunks, h]
  types_inOrder := inOrder_typeChunks path lines
  types_declared := by
    intro c hc
    obtain ⟨b, hb, rfl⟩ := List.mem_map.mp hc
    obtain ⟨line, hline, -, hdeclared⟩ := (liesIn_of_mem_blocks hb).2.recognised
    exact ⟨kind_of_typeDeclaration? hdeclared, b.first, line, hline, hdeclared,
      Chunk.isBlock_ofBlock hb path _ _⟩
  types_cover := by
    intro i line hline hdeclared
    refine (inOrder_typeChunks path lines).existsUnique ?_
    obtain ⟨b, hb, hfirst, hlast⟩ := exists_mem_blocks typeDeclaration? (Nat.zero_le i) hline hdeclared
    exact ⟨_, List.mem_map_of_mem hb, (Chunk.isBlock_ofBlock hb path _ _).spans hfirst hlast⟩
  values_inOrder := inOrder_valueChunks path lines
  values_declared := by
    intro c hc
    obtain ⟨b, hb, hchunk⟩ := List.mem_filterMap.mp hc
    obtain ⟨⟨kind, name⟩, hlabel, rfl⟩ := Option.map_eq_some_iff.mp hchunk
    obtain ⟨hstart, hlies⟩ := liesIn_of_mem_blocks hb
    obtain ⟨line, hline, -, hdeclared⟩ := hlies.recognised
    rw [hlabel] at hdeclared
    exact ⟨kind_of_declaration? hdeclared, b.first, line, bodyStart_le_iff.mp hstart, hline,
      hdeclared, Chunk.isBlock_ofBlock hb path _ _⟩
  values_cover := by
    intro i line hbelow hline hdeclares
    obtain ⟨b, hb, hfirst, hlast⟩ := exists_mem_blocks (fun line => declaration? line.trim)
      (bodyStart_le_iff.mpr hbelow) hline hdeclares.declaration?
    cases hlabel : b.label with
    | some declared =>
      have hchunk := Chunk.isBlock_ofBlock hb path declared.1 declared.2
      refine .inl ⟨_, List.mem_filterMap.mpr ⟨b, hb, ?_⟩, hchunk.spans hfirst hlast⟩
      rw [hlabel]
      rfl
    | none =>
      -- what the scan passes over is the block of a type
      obtain ⟨line', hline', -, hdeclared⟩ := (liesIn_of_mem_blocks hb).2.recognised
      rw [hlabel] at hdeclared
      exact .inr ⟨b.first, line', hfirst, hlast, hline', typeDeclaration?_of_passed hdeclared⟩
  starts_ne := pairwise_scans path lines

/-- The chunker for scripts gives the chunks of the three scans, or the whole file if there are none. -/
theorem chunk?_chunker (extensions : List Text) (path : Text) {content : Text}
    (h : content.isBlank = false) :
    let scans := importChunks path content.lines ++ typeChunks path content.lines ++
      valueChunks path content.lines
    (chunker extensions).chunk? path content =
      some (if scans = [] then [.wholeFile path .unknown content] else scans) := by
  intro scans
  have hchunks : chunks path content =
      if scans = [] then [.wholeFile path .unknown content] else scans := by
    rw [chunks]
    split
    · rename_i hnil
      exact (if_pos hnil).symm
    · rename_i hne
      exact (if_neg hne).symm
  rw [chunker, Chunker.chunk?_ofExtensions _ _ _ _ h, hchunks]

end Script

namespace Stylesheet

/-- The chunks of the rule sets of a stylesheet are in order, and each is the block of a line that
starts it. Every line that starts with a marker, apart from blanks, lies in exactly one of them. -/
structure Layout (path : Text) (lines : List Text) (sets : List Chunk) : Prop where
  inOrder : InOrder sets
  declared : ∀ c ∈ sets, c.kind = .style ∧ ∃ i line, lines[i]? = some line ∧
    ruleSet? line = some c.name ∧ c.IsBlock path lines i
  cover : ∀ i line, lines[i]? = some line → markers.any line.trim.startsWith = true →
    ∃! c, c ∈ sets ∧ c.Spans i

theorem inOrder_ruleSets (path content : Text) : InOrder (ruleSets path content) := by
  rw [ruleSets, ← List.filterMap_eq_map]
  refine inOrder_filterMap_blocks path fun b hb c hc => ?_
  cases hc
  exact Chunk.isBlock_ofBlock hb path _ _

/-- The rule sets of a stylesheet are laid out in this way. -/
theorem layout_ruleSets (path content : Text) :
    Layout path content.lines (ruleSets path content) where
  inOrder := inOrder_ruleSets path content
  declared := by
    intro c hc
    obtain ⟨b, hb, rfl⟩ := List.mem_map.mp hc
    obtain ⟨line, hline, -, hname⟩ := (liesIn_of_mem_blocks hb).2.recognised
    exact ⟨rfl, b.first, line, hline, hname, Chunk.isBlock_ofBlock hb path _ _⟩
  cover := by
    intro i line hline hmarked
    have hset : (ruleSet? line).isSome = true := by
      rw [ruleSet?, if_pos hmarked]
      rfl
    refine (inOrder_ruleSets path content).existsUnique ?_
    obtain ⟨b, hb, hfirst, hlast⟩ := exists_mem_blocks ruleSet? (Nat.zero_le i) hline hset
    exact ⟨_, List.mem_map_of_mem hb, (Chunk.isBlock_ofBlock hb path _ _).spans hfirst hlast⟩

/-- The chunker for stylesheets gives the rule sets, or the whole file if there are none. -/
theorem chunk?_chunker (extensions : List Text) (path : Text) {content : Text}
    (h : content.isBlank = false) :
    (chunker extensions).chunk? path content =
      some (if ruleSets path content = [] then [.wholeFile path .style content]
        else ruleSets path content) := by
  have hchunks : chunks path content =
      if ruleSets path content = [] then [.wholeFile path .style content]
      else ruleSets path content := by
    unfold chunks
    cases ruleSets path content <;> rfl
  rw [chunker, Chunker.chunk?_ofExtensions _ _ _ _ h, hchunks]

end Stylesheet

/-- How a file that is not blank is cut. A script is cut into the chunk of its imports, if it has any,
then its interfaces and types, then its functions and constants; a stylesheet is cut into rule sets. The
chunks of each scan are blocks in the order of their lines without a line in common, and they cover all
lines that the scan recognises, but for functions and constants inside the block of a type. If nothing
is recognised, the file is one chunk. -/
theorem chunk?_layout (extensions : List Text) (path : Text) {content : Text}
    (h : content.isBlank = false) :
    (∃ imports types values, Script.Layout path content.lines imports types values ∧
      (Script.chunker extensions).chunk? path content =
        some (if imports ++ types ++ values = [] then [.wholeFile path .unknown content]
          else imports ++ types ++ values)) ∧
    ∃ sets, Stylesheet.Layout path content.lines sets ∧
      (Stylesheet.chunker extensions).chunk? path content =
        some (if sets = [] then [.wholeFile path .style content] else sets) :=
  ⟨⟨_, _, _, Script.layout_chunks path content.lines, Script.chunk?_chunker extensions path h⟩,
    _, Stylesheet.layout_ruleSets path content, Stylesheet.chunk?_chunker extensions path h⟩

/-- A script whose constant stands inside an indented type, between an import and an interface: it is in
no chunk. -/
theorem chunk?_layout_of_passed_constant :
    let path : Text := "a.ts".toList
    let content : Text := ("import a\n type T = \x7b\n  const x = []\n \x7d\n".toList ++
      "export interface I \x7b\n\x7d\nconst f = () => \x7b\n\x7d".toList)
    content.isBlank = false ∧ Script.DeclaresValue "  const x = []".toList ∧
      (∃ imports types values, Script.Layout path content.lines imports types values ∧
        (Script.chunker []).chunk? path content =
          some (if imports ++ types ++ values = [] then [.wholeFile path .unknown content]
            else imports ++ types ++ values)) ∧
      ((Script.chunker []).chunk? path content).map (List.map fun c => (c.startLine, c.endLine)) =
        some [(0, 0), (4, 5), (6, 7)] := by
  intro path content
  have hcontent : content.isBlank = false := by decide +kernel
  obtain ⟨hscript, -⟩ := chunk?_layout [] path hcontent
  exact ⟨hcontent, .inr (by decide +kernel), hscript, by decide +kernel⟩

end SourceIndex
