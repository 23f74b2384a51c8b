import SourceIndex.Chunker.Script
import SourceIndex.Proofs.Contract

/-!
# Scripts meet the chunk contract

The chunks of a script come from three scans: for imports, for interface and type declarations, and
for functions and constants. The blocks of one scan do not overlap. Those of different scans can, but
they start at different lines: no line is both an import and a declaration, and a line that declares
a type, which the third scan looks at without the blanks at its ends, declares nothing else there.
-/

namespace SourceIndex

namespace Script

/-! ## Imports -/

/-- A run of imports ends at the last line known to belong to it or below, within the lines that were
looked at. -/
theorem importRunEnd_bounds {isOpen : Bool} {last index : Nat} {lines : List Text}
    (h : last ≤ index) :
    last ≤ importRunEnd isOpen last index lines ∧
      (importRunEnd isOpen last index lines = last ∨
        importRunEnd isOpen last index lines < index + lines.length) := by
  -- every line that is found to belong to the run is the one just looked at
  fun_induction importRunEnd isOpen last index lines with
  | case1 => exact ⟨Nat.le_refl _, .inl rfl⟩
  | case2 last index line rest ih =>
    have := ih (Nat.le_succ index)
    rw [List.length_cons]
    omega
  | case3 last index line rest trimmed himport ih =>
    have := ih (Nat.le_succ index)
    rw [List.length_cons]
    omega
  | case4 last index line rest trimmed himport hempty ih =>
    have := ih (h.trans (Nat.le_succ index))
    rw [List.length_cons]
    omega
  | case5 last index line rest trimmed himport hempty hcloses ih =>
    have := ih (Nat.le_succ index)
    rw [List.length_cons]
    omega
  | case6 => exact ⟨Nat.le_refl _, .inl rfl⟩

/-- The first run of imports starts at an import and lies within the script. -/
theorem importRun?_bounds {lines : List Text} {first last : Nat}
    (h : importRun? lines = some (first, last)) :
    first ≤ last ∧ last < lines.length ∧
      ∃ line, lines[first]? = some line ∧ startsImport line.trim = true := by
  obtain ⟨start, hstart, heq⟩ := Option.map_eq_some_iff.mp h
  cases heq
  obtain ⟨hlt, himport, -⟩ := List.findIdx?_eq_some_iff_getElem.mp hstart
  have hbounds : first ≤ importRunEnd false first first (lines.drop first) ∧
      (importRunEnd false first first (lines.drop first) = first ∨
        importRunEnd false first first (lines.drop first) < first + (lines.drop first).length) :=
    importRunEnd_bounds (Nat.le_refl first)
  rw [List.length_drop] at hbounds
  exact ⟨hbounds.1, by omega, lines[first], List.getElem?_eq_getElem hlt, himport⟩

/-! ## Declarations -/

/-- A binding names a word. -/
theorem isBlank_binding? {keywords : List Text} {s name rest : Text}
    (h : binding? keywords s = some (name, rest)) : name.isBlank = false := by
  simp only [binding?, Option.bind_eq_bind, Option.bind_eq_some_iff, Option.some.injEq,
    Prod.mk.injEq] at h
  obtain ⟨_, -, _, -, ⟨word, _⟩, hword, rfl, -⟩ := h
  exact Text.isBlank_of_takeWord hword

/-- A type declaration names a word. -/
theorem isBlank_typeDeclaration? {s name : Text} {kind : Chunk.Kind}
    (h : typeDeclaration? s = some (kind, name)) : name.isBlank = false := by
  simp only [typeDeclaration?, Option.bind_eq_bind, Option.bind_eq_some_iff, Option.some.injEq,
    Prod.mk.injEq] at h
  obtain ⟨_, -, _, -, ⟨word, _⟩, hword, -, rfl⟩ := h
  exact Text.isBlank_of_takeWord hword

/-- A function has a word for its name. -/
theorem isBlank_functionName? {s name : Text} (h : functionName? s = some name) :
    name.isBlank = false := by
  unfold functionName? at h
  rcases Option.or_eq_some_iff.mp h with h | ⟨-, h⟩
  · rcases Option.or_eq_some_iff.mp h with h | ⟨-, h⟩
    · simp only [functionDeclaration?, Option.bind_eq_bind, Option.bind_eq_some_iff,
        Option.some.injEq] at h
      obtain ⟨_, -, ⟨word, _⟩, hword, rfl⟩ := h
      exact Text.isBlank_of_takeWord hword
    · simp only [arrowBinding?, Option.bind_eq_bind, Option.bind_eq_some_iff] at h
      obtain ⟨⟨word, _⟩, hbinding, _, -, hname⟩ := h
      split at hname
      · cases hname
        exact isBlank_binding? hbinding
      · cases hname
  · simp only [functionBinding?, Option.bind_eq_bind, Option.bind_eq_some_iff] at h
    obtain ⟨⟨word, _⟩, hbinding, _, -, hname⟩ := h
    -- an expression in parentheses and one without are told apart before the name is given
    split at hname
    all_goals
      split at hname
      · cases hname
        exact isBlank_binding? hbinding
      · cases hname

/-- A constant has a word for its name. -/
theorem isBlank_literalConstant? {s name : Text} (h : literalConstant? s = some name) :
    name.isBlank = false := by
  simp only [literalConstant?, Option.bind_eq_bind, Option.bind_eq_some_iff] at h
  obtain ⟨⟨word, _⟩, hbinding, _, -, hname⟩ := h
  split at hname
  · split at hname
    · cases hname
      exact isBlank_binding? hbinding
    · cases hname
  · cases hname

/-- A declaration that is kept has a word for its name and is not that of a type. -/
theorem of_declaration?_eq_some {line name : Text} {kind : Chunk.Kind}
    (h : declaration? line = some (some (kind, name))) :
    name.isBlank = false ∧ typeDeclaration? line = none := by
  unfold declaration? at h
  split at h
  · cases h
  · rename_i htype
    refine ⟨?_, Option.not_isSome_iff_eq_none.mp htype⟩
    split at h
    · rename_i word hfunction
      cases h
      exact isBlank_functionName? hfunction
    · obtain ⟨word, hword, heq⟩ := Option.map_eq_some_iff.mp h
      cases heq
      exact isBlank_literalConstant? hword

/-- No line that starts an import declares a type. -/
theorem typeDeclaration?_of_startsImport {line : Text} (h : startsImport line = true) :
    typeDeclaration? line = none := by
  have hstart : ∃ rest, line = 'i' :: 'm' :: rest := by
    rcases Bool.or_eq_true_iff.mp h with h | h
    · obtain ⟨rest, rfl⟩ := List.isPrefixOf_iff_prefix.mp h
      exact ⟨_, rfl⟩
    · obtain ⟨rest, rfl⟩ := List.isPrefixOf_iff_prefix.mp h
      exact ⟨_, rfl⟩
  obtain ⟨rest, rfl⟩ := hstart
  rfl

/-- A text declares a type if a keyword, blanks and a word follow each other behind an optional
export. -/
theorem typeDeclaration?_isSome {s : Text} :
    (typeDeclaration? s).isSome = true ↔
      ∃ word r q, (s.skipWord "export".toList).afterOneOf? ["interface".toList, "type".toList] =
        some (word, r) ∧ r.afterBlanks? = some q ∧ q.takeWord.isSome = true := by
  constructor
  · intro h
    obtain ⟨declared, hdeclared⟩ := Option.isSome_iff_exists.mp h
    simp only [typeDeclaration?, Option.bind_eq_bind, Option.bind_eq_some_iff] at hdeclared
    obtain ⟨⟨word, r⟩, hkeyword, q, hblanks, ⟨name, rest⟩, hname, -⟩ := hdeclared
    exact ⟨word, r, q, hkeyword, hblanks, Option.isSome_of_eq_some hname⟩
  · rintro ⟨word, r, q, hkeyword, hblanks, hname⟩
    obtain ⟨⟨name, rest⟩, hname⟩ := Option.isSome_iff_exists.mp hname
    simp only [typeDeclaration?, Option.bind_eq_bind, hkeyword, Option.bind_some, hblanks, hname,
      Option.isSome_some]

/-- The keywords of type declarations have no blanks. -/
theorem isBlankChar_of_mem_keywords : ∀ w ∈ ["export".toList, "interface".toList, "type".toList],
    ∀ c ∈ w, isBlankChar c = false := by
  have hall : (["export".toList, "interface".toList, "type".toList].all
      fun w => w.all fun c => !isBlankChar c) = true := by decide
  intro w hw c hc
  simpa using List.all_eq_true.mp (List.all_eq_true.mp hall w hw) c hc

/-- A line that declares a type starts with a character that is not blank. -/
theorem trimStart_of_typeDeclaration? {line : Text} (h : (typeDeclaration? line).isSome = true) :
    line.trimStart = line := by
  cases line with
  | nil => rfl
  | cons c rest =>
    refine Text.trimStart_cons ?_
    by_contra hblank
    rw [Bool.not_eq_false] at hblank
    obtain ⟨word, r, q, hkeyword, -⟩ := typeDeclaration?_isSome.mp h
    have hafter : ∀ w ∈ ["export".toList, "interface".toList, "type".toList],
        Text.after? (c :: rest) w = none := fun w hw =>
      Text.after?_cons_of_isBlankChar hblank (isBlankChar_of_mem_keywords w hw) (by
        rintro rfl
        simp at hw)
    have hexport : Text.skipWord (c :: rest) "export".toList = c :: rest := by
      rw [Text.skipWord, hafter _ List.mem_cons_self]
      rfl
    have hnone : Text.afterOneOf? (c :: rest) ["interface".toList, "type".toList] = none :=
      List.findSome?_eq_none_iff.mpr fun w hw => by
        rw [hafter w (List.mem_cons_of_mem _ hw)]
        rfl
    rw [hexport, hnone] at hkeyword
    cases hkeyword

/-- A line that declares a type does so without the blanks at its ends. -/
theorem typeDeclaration?_trim {line : Text} (h : (typeDeclaration? line).isSome = true) :
    (typeDeclaration? line.trim).isSome = true := by
  obtain ⟨z, hz, hblank⟩ := Text.exists_trimEnd_append line
  rw [Text.trim, trimStart_of_typeDeclaration? h]
  rw [hz, typeDeclaration?_isSome] at h
  obtain ⟨word, r, q, hkeyword, hblanks, hname⟩ := h
  -- a keyword follows the optional export, so the blanks at the end are not all that is left
  have hexport : (line.trimEnd ++ z).skipWord "export".toList ≠ [] := by
    intro hnil
    rw [hnil] at hkeyword
    cases hkeyword
  rw [Text.skipWord_append hblank (isBlankChar_of_mem_keywords _ List.mem_cons_self) hexport,
    Text.afterOneOf?_append hblank fun w hw =>
      isBlankChar_of_mem_keywords w (List.mem_cons_of_mem _ hw)] at hkeyword
  obtain ⟨⟨first, s⟩, howned, heq⟩ := Option.map_eq_some_iff.mp hkeyword
  obtain ⟨rfl, rfl⟩ := Prod.mk.inj heq
  have hq : q ≠ [] := by
    rintro rfl
    cases hname
  obtain ⟨name, hbefore, rfl⟩ := Text.afterBlanks?_append hblank hblanks hq
  rw [Text.takeWord_append hblank, Option.isSome_map] at hname
  exact typeDeclaration?_isSome.mpr ⟨first, s, name, howned, hbefore, hname⟩

/-! ## Chunks -/

/-- The chunk of the imports fits the script and starts at the first import. -/
theorem of_mem_importChunks {path : Text} {lines : List Text} {c : Chunk}
    (h : c ∈ importChunks path lines) :
    c.Fits lines.length ∧ ∃ first last, importRun? lines = some (first, last) ∧
      c.startLine = first := by
  unfold importChunks at h
  split at h
  · cases h
  · rename_i first last hrun
    rw [List.mem_singleton.mp h]
    obtain ⟨hfirst, hlast, -⟩ := importRun?_bounds hrun
    have hlen : ((lines.drop first).take (last + 1 - first)).length = last + 1 - first := by
      rw [List.length_take, List.length_drop]
      omega
    exact ⟨Chunk.fits_ofBlock (by decide) (by omega) (by omega), first, last, hrun, rfl⟩

/-- The chunk of an interface or a type fits the script and starts at its declaration. -/
theorem of_mem_typeChunks {path : Text} {lines : List Text} {c : Chunk}
    (h : c ∈ typeChunks path lines) :
    c.Fits lines.length ∧ ∃ first line, c.startLine = (first : Nat) ∧ lines[first]? = some line ∧
      (typeDeclaration? line).isSome = true := by
  obtain ⟨b, hb, rfl⟩ := List.mem_map.mp h
  obtain ⟨line, hline, -, hdeclared⟩ := (liesIn_of_mem_blocks hb).2.recognised
  exact ⟨Chunk.fits_of_mem_blocks hb (isBlank_typeDeclaration? hdeclared), b.first, line, rfl,
    hline, Option.isSome_of_eq_some hdeclared⟩

/-- The chunk of a function or a constant fits the script and starts below the imports, at a line that
declares no type. -/
theorem of_mem_valueChunks {path : Text} {lines : List Text} {c : Chunk}
    (h : c ∈ valueChunks path lines) :
    c.Fits lines.length ∧ ∃ first line, c.startLine = (first : Nat) ∧ bodyStart lines ≤ first ∧
      lines[first]? = some line ∧ typeDeclaration? line.trim = none := by
  obtain ⟨b, hb, hchunk⟩ := List.mem_filterMap.mp h
  obtain ⟨⟨kind, name⟩, hlabel, rfl⟩ := Option.map_eq_some_iff.mp hchunk
  obtain ⟨hstart, hlies⟩ := liesIn_of_mem_blocks hb
  obtain ⟨line, hline, -, hdeclared⟩ := hlies.recognised
  rw [hlabel] at hdeclared
  obtain ⟨hname, htype⟩ := of_declaration?_eq_some hdeclared
  exact ⟨Chunk.fits_of_mem_blocks hb hname, b.first, line, rfl, hstart, hline, htype⟩

/-- No two interfaces or types start at one line. -/
theorem pairwise_typeChunks (path : Text) (lines : List Text) :
    (typeChunks path lines).Pairwise fun c d => c.startLine ≠ d.startLine := by
  rw [typeChunks, ← List.filterMap_eq_map]
  refine pairwise_filterMap_blocks _ 0 lines fun b c hc => ?_
  cases hc
  rfl

/-- No two functions or constants start at one line. -/
theorem pairwise_valueChunks (path : Text) (lines : List Text) :
    (valueChunks path lines).Pairwise fun c d => c.startLine ≠ d.startLine := by
  refine pairwise_filterMap_blocks _ (bodyStart lines) lines fun b c hc => ?_
  obtain ⟨label, -, rfl⟩ := Option.map_eq_some_iff.mp hc
  rfl

/-- Neither a type nor a function or constant starts at the first import. -/
theorem startLine_ne_of_mem_importChunks {path : Text} {lines : List Text} {c d : Chunk}
    (hc : c ∈ importChunks path lines) (hd : d ∈ typeChunks path lines ++ valueChunks path lines) :
    c.startLine ≠ d.startLine := by
  obtain ⟨-, first, last, hrun, hfirst⟩ := of_mem_importChunks hc
  obtain ⟨hle, -, line, hline, himport⟩ := importRun?_bounds hrun
  intro heq
  rcases List.mem_append.mp hd with hd | hd
  · -- types are looked for in the whole script, so only the line itself rules this out
    obtain ⟨-, start, line', hstart, hline', htype⟩ := of_mem_typeChunks hd
    have hsame : first = start := by omega
    rw [← hsame, hline, Option.some.injEq] at hline'
    have htrim := typeDeclaration?_trim (hline' ▸ htype)
    rw [typeDeclaration?_of_startsImport himport] at htrim
    cases htrim
  · obtain ⟨-, start, line', hstart, hbody, -⟩ := of_mem_valueChunks hd
    have hbelow : bodyStart lines = last + 1 := by rw [bodyStart, hrun]
    omega

/-- No function or constant starts where a type is declared. -/
theorem startLine_ne_of_mem_typeChunks {path : Text} {lines : List Text} {c d : Chunk}
    (hc : c ∈ typeChunks path lines) (hd : d ∈ valueChunks path lines) :
    c.startLine ≠ d.startLine := by
  obtain ⟨-, first, line, hfirst, hline, htype⟩ := of_mem_typeChunks hc
  obtain ⟨-, start, line', hstart, -, hline', hnone⟩ := of_mem_valueChunks hd
  intro heq
  have hsame : first = start := by omega
  rw [hsame, hline', Option.some.injEq] at hline
  have htrim := typeDeclaration?_trim (hline ▸ htype)
  rw [hnone] at htrim
  cases htrim

/-- The chunks of a script fit it if the file has a name. -/
theorem fits_of_mem_chunks {path content : Text} (hname : (Path.baseName path).isBlank = false)
    {c : Chunk} (h : c ∈ chunks path content) : c.Fits content.lines.length := by
  rw [chunks] at h
  split at h
  · rw [List.mem_singleton.mp h]
    exact Chunk.fits_wholeFile .unknown content hname
  · rcases List.mem_append.mp h with h | h
    · rcases List.mem_append.mp h with h | h
      · exact (of_mem_importChunks h).1
      · exact (of_mem_typeChunks h).1
    · exact (of_mem_valueChunks h).1

/-- No two chunks of the three scans of a script start at one line. -/
theorem pairwise_scans (path : Text) (lines : List Text) :
    (importChunks path lines ++ typeChunks path lines ++ valueChunks path lines).Pairwise
      fun c d => c.startLine ≠ d.startLine := by
  have himports : (importChunks path lines).Pairwise fun c d => c.startLine ≠ d.startLine := by
    unfold importChunks
    split
    · exact .nil
    · exact List.pairwise_singleton _ _
  rw [List.append_assoc]
  refine List.pairwise_append.mpr ⟨himports, List.pairwise_append.mpr ⟨pairwise_typeChunks _ _,
    pairwise_valueChunks _ _, ?_⟩, ?_⟩
  · exact fun c hc d hd => startLine_ne_of_mem_typeChunks hc hd
  · exact fun c hc d hd => startLine_ne_of_mem_importChunks hc hd

/-- No two chunks of a script start at one line. -/
theorem pairwise_chunks (path content : Text) :
    (chunks path content).Pairwise fun c d => c.startLine ≠ d.startLine := by
  rw [chunks]
  split
  · exact List.pairwise_singleton _ _
  · exact pairwise_scans path content.lines

end Script

end SourceIndex
