import SourceIndex.Chunker.QueryFile
import SourceIndex.Proofs.Contract
import SourceIndex.Proofs.Pattern

/-!
# Query files meet the chunk contract

The raw statements of a query file and their separators are the file again, and every separator has
one newline. Each chunk is that of one raw statement, behind the lines of those before it
(`exists_of_mem_statementsFrom`). So the lines of the file are counted right: each chunk lies within
the file, and the next one starts below its last line.
-/

namespace SourceIndex

namespace QueryFile

/-! ## Separators -/

/-- A separator is a semicolon, blanks that are no newlines, and one newline. -/
theorem of_separator_eq_some {s sep rest : Text} (h : separator s = some (sep, rest)) :
    ∃ blanks, sep = ';' :: blanks ++ ['\n'] ∧ (∀ c ∈ blanks, isSeparatorBlank c = true) ∧
      sep ++ rest = s := by
  match s with
  | [] => cases h
  | c :: s =>
    unfold separator at h
    split at h
    · rename_i tail heq
      split at h
      · rename_i blanks after hspan
        rw [List.span_eq_takeWhile_dropWhile] at hspan
        obtain ⟨hblanks, hafter⟩ := Prod.mk.inj hspan
        cases h
        refine ⟨blanks, rfl, fun d hd => List.mem_takeWhile_imp (hblanks ▸ hd), ?_⟩
        rw [heq, ← List.takeWhile_append_dropWhile (p := isSeparatorBlank) (l := tail), hblanks,
          hafter]
        simp
      · cases h
    · cases h

theorem reads_separator : separator.Reads := by
  intro s sep rest h
  obtain ⟨blanks, rfl, -, heq⟩ := of_separator_eq_some h
  exact ⟨by simp, heq⟩

/-- The raw statements of a file and their separators are the file again. -/
theorem flatMap_splitStatements (content : Text) :
    ((splitStatements content).flatMap fun part => part.1 ++ part.2) = content := by
  rw [splitStatements, List.flatMap_append, List.flatMap_singleton, List.append_nil,
    Pattern.flatMap_splitAfter reads_separator]

/-- A separator has one newline. -/
theorem newlines_separator {s sep rest : Text} (h : separator s = some (sep, rest)) :
    newlines sep = 1 := by
  obtain ⟨blanks, rfl, hblanks, -⟩ := of_separator_eq_some h
  have hnone : blanks.count '\n' = 0 :=
    List.count_eq_zero.mpr fun hmem => absurd (hblanks _ hmem) (by decide)
  simp [newlines, List.count_append, hnone]

/-! ## Names of statements -/

/-- The name of an object is a word. -/
theorem isBlank_objectName {s name rest : Text} (h : objectName s = some (name, rest)) :
    name.isBlank = false := by
  unfold objectName at h
  split at h
  · split at h
    · exact Text.isBlank_of_takeWord h
    · exact Text.isBlank_of_takeWord h
  · cases h

/-- The name of a created object is a word. -/
theorem isBlank_createdName {s name rest : Text} (h : createdName s = some (name, rest)) :
    name.isBlank = false := by
  simp only [createdName, Option.bind_eq_bind, Option.bind_eq_some_iff] at h
  obtain ⟨_, -, _, -, h⟩ := h
  rcases Option.or_eq_some_iff.mp h with h | ⟨-, h⟩
  · exact isBlank_objectName h
  · exact isBlank_objectName h

/-- Every statement has a name. -/
theorem isBlank_statementName (statement : Text) : (statementName statement).isBlank = false := by
  unfold statementName
  cases h : createdName.find? statement with
  | none => decide
  | some name =>
    obtain ⟨t, rest, hname⟩ := Pattern.exists_of_find?_eq_some h
    exact isBlank_createdName hname

/-! ## Lines of statements -/

/-- The lines of raw statements with their separators. -/
def newlinesIn (raws : List (Text × Text)) : Nat :=
  newlines (raws.flatMap fun part => part.1 ++ part.2)

theorem newlinesIn_cons (raw sep : Text) (rest : List (Text × Text)) :
    newlinesIn ((raw, sep) :: rest) = newlines raw + newlines sep + newlinesIn rest := by
  simp [newlinesIn, newlines, List.count_append, Nat.add_assoc]

theorem newlinesIn_append (front rest : List (Text × Text)) :
    newlinesIn (front ++ rest) = newlinesIn front + newlinesIn rest := by
  simp [newlinesIn, newlines, List.count_append]

/-- The chunk of a raw statement has a name and the lines of the raw statement. -/
theorem statementChunk_bounds (path : Text) (offset : Nat) (raw : Text) :
    let c := statementChunk path offset raw
    (offset : Int) ≤ c.startLine ∧ c.startLine ≤ c.endLine ∧ c.endLine ≤ offset + newlines raw := by
  intro c
  have hcount := Text.count_takeWhile_add_count_trim_le raw
  show (offset : Int) ≤ (offset + (raw.takeWhile isBlankChar).count '\n' : Nat) ∧
    ((offset + (raw.takeWhile isBlankChar).count '\n' : Nat) : Int) ≤
      (offset + (raw.takeWhile isBlankChar).count '\n' + raw.trim.count '\n' : Nat) ∧
    ((offset + (raw.takeWhile isBlankChar).count '\n' + raw.trim.count '\n' : Nat) : Int) ≤
      offset + raw.count '\n'
  omega

/-- A chunk of raw statements is that of one of them that is not blank, behind the lines of those
before it. -/
theorem exists_of_mem_statementsFrom {path : Text} {offset : Nat} {raws : List (Text × Text)}
    {c : Chunk} (h : c ∈ statementsFrom path offset raws) :
    ∃ front raw sep rest, raws = front ++ (raw, sep) :: rest ∧ raw.isBlank = false ∧
      c = statementChunk path (offset + newlinesIn front) raw := by
  induction raws generalizing offset with
  | nil => cases h
  | cons part others ih =>
    obtain ⟨raw, sep⟩ := part
    -- the chunks of the others are found further down, whether or not this statement is blank
    have hothers : c ∈ statementsFrom path (offset + newlines raw + newlines sep) others →
        ∃ front raw' sep' rest, (raw, sep) :: others = front ++ (raw', sep') :: rest ∧
          raw'.isBlank = false ∧ c = statementChunk path (offset + newlinesIn front) raw' := by
      intro hc
      obtain ⟨front, raw', sep', rest, rfl, hblank, rfl⟩ := ih hc
      refine ⟨(raw, sep) :: front, raw', sep', rest, rfl, hblank, ?_⟩
      rw [newlinesIn_cons, Nat.add_assoc offset, Nat.add_assoc offset]
    rw [statementsFrom] at h
    split at h
    · exact hothers h
    · rename_i hblank
      rcases List.mem_cons.mp h with rfl | h
      · exact ⟨[], raw, sep, others, rfl, eq_false_of_ne_true hblank, rfl⟩
      · exact hothers h

/-- The chunks of raw statements have names and the lines of the raw statements. -/
theorem statementsFrom_bounds {path : Text} {offset : Nat} {raws : List (Text × Text)} {c : Chunk}
    (h : c ∈ statementsFrom path offset raws) :
    c.name.isBlank = false ∧ (offset : Int) ≤ c.startLine ∧ c.startLine ≤ c.endLine ∧
      c.endLine ≤ offset + newlinesIn raws := by
  obtain ⟨front, raw, sep, rest, rfl, -, rfl⟩ := exists_of_mem_statementsFrom h
  obtain ⟨hstart, hend, hlast⟩ := statementChunk_bounds path (offset + newlinesIn front) raw
  rw [newlinesIn_append, newlinesIn_cons]
  exact ⟨isBlank_statementName _, by omega, hend, by omega⟩

/-- Where every separator but the last has a newline, each chunk starts below the last line of the
one before. -/
theorem pairwise_statementsFrom (path : Text) (offset : Nat) {parts : List (Text × Text)}
    (last : Text × Text) (h : ∀ part ∈ parts, newlines part.2 = 1) :
    (statementsFrom path offset (parts ++ [last])).Pairwise fun c d => c.endLine < d.startLine := by
  induction parts generalizing offset with
  | nil =>
    obtain ⟨raw, sep⟩ := last
    rw [List.nil_append, statementsFrom]
    split
    · exact .nil
    · exact List.pairwise_singleton _ _
  | cons part rest ih =>
    obtain ⟨raw, sep⟩ := part
    have hsep : newlines sep = 1 := h _ List.mem_cons_self
    have hrest := ih (offset + newlines raw + newlines sep) fun part hpart =>
      h part (List.mem_cons_of_mem _ hpart)
    rw [List.cons_append, statementsFrom]
    split
    · exact hrest
    · refine List.pairwise_cons.mpr ⟨fun d hd => ?_, hrest⟩
      -- the newline of the separator lies between the two chunks
      obtain ⟨-, -, hlast⟩ := statementChunk_bounds path offset raw
      obtain ⟨-, hstart, -⟩ := statementsFrom_bounds hd
      omega

/-- The raw statements and the separators of a file have its newlines. -/
theorem newlinesIn_splitStatements (content : Text) :
    newlinesIn (splitStatements content) + 1 = content.lines.length := by
  rw [Text.length_lines, newlinesIn, flatMap_splitStatements]
  rfl

/-- The chunks of a query file fit it. -/
theorem fits_of_mem_statements {path content : Text} {c : Chunk} (h : c ∈ statements path content) :
    c.Fits content.lines.length := by
  obtain ⟨hname, hstart, hend, hlast⟩ := statementsFrom_bounds h
  have hlines := newlinesIn_splitStatements content
  exact ⟨hname, by omega, hend, by omega⟩

/-- Each chunk of a query file starts below the last line of the one before. -/
theorem pairwise_statements (path content : Text) :
    (statements path content).Pairwise fun c d => c.endLine < d.startLine := by
  refine pairwise_statementsFrom path 0 _ fun part hpart => ?_
  obtain ⟨t, rest, hsep⟩ := Pattern.exists_of_mem_splitAfter hpart
  exact newlines_separator hsep

end QueryFile

end SourceIndex
