import SourceIndex.Proofs.QueryFile

/-!
# Statements of query files

A query file is cut at every semicolon that ends a line and nowhere else, and nothing of it is lost.
Each piece with anything but blanks is one chunk: its trimmed text, with the numbers of the lines on
which its first and its last character stand in the file (`statements_of_pieces`). The line numbers are
counted along with the pieces, so the induction carries the text in front of them.
-/

namespace SourceIndex

namespace QueryFile

/-! ## Where a file is cut -/

/-- A separator of statements: a semicolon, blanks within a line and the newline that ends it. -/
def IsSeparator (sep : Text) : Prop :=
  ∃ blanks, sep = ';' :: blanks ++ ['\n'] ∧ ∀ c ∈ blanks, c ∈ [' ', '\t', '\r', '\x0c', '\x0b']

theorem isSeparatorBlank_iff {c : Char} :
    isSeparatorBlank c = true ↔ c ∈ [' ', '\t', '\r', '\x0c', '\x0b'] := by
  simp [isSeparatorBlank, or_assoc]

/-- What is read as a separator is one. -/
theorem isSeparator_of_separator {s sep rest : Text} (h : separator s = some (sep, rest)) :
    IsSeparator sep := by
  obtain ⟨blanks, hsep, hblanks, -⟩ := of_separator_eq_some h
  exact ⟨blanks, hsep, fun c hc => isSeparatorBlank_iff.mp (hblanks c hc)⟩

/-- A separator is read wherever it stands. -/
theorem separator_append {sep : Text} (h : IsSeparator sep) (rest : Text) :
    separator (sep ++ rest) ≠ none := by
  obtain ⟨blanks, rfl, hblanks⟩ := h
  have hpass : ∀ c ∈ blanks, isSeparatorBlank c = true := fun c hc =>
    isSeparatorBlank_iff.mpr (hblanks c hc)
  have hspan : (blanks ++ '\n' :: rest).span isSeparatorBlank = (blanks, '\n' :: rest) := by
    rw [List.span_eq_takeWhile_dropWhile, List.takeWhile_append_of_pos hpass,
      List.dropWhile_append_of_pos hpass]
    simp [isSeparatorBlank]
  have hread : separator (';' :: (blanks ++ '\n' :: rest)) =
      some (';' :: blanks ++ ['\n'], rest) := by
    rw [separator, hspan]
    rfl
  have happend : ';' :: blanks ++ ['\n'] ++ rest = ';' :: (blanks ++ '\n' :: rest) := by simp
  rw [happend, hread]
  exact Option.some_ne_none _

/-- No separator stands inside a piece. -/
theorem not_infix_of_mem_splitStatements {content sep : Text} (hsep : IsSeparator sep)
    {piece : Text × Text} (h : piece ∈ splitStatements content) : ¬ sep <:+: piece.1 := by
  obtain ⟨hparts, hlast⟩ :=
    Pattern.not_infix_of_splitAfter reads_separator (separator_append hsep) content
  rcases List.mem_append.mp h with h | h
  · exact hparts piece h
  · rw [List.mem_singleton.mp h]
    exact hlast

/-! ## Where the statements lie -/

/-- The raw statements with the positions at which they start, if the first one starts at `start`. -/
def placedFrom : (start : Nat) → List (Text × Text) → List (Nat × Text)
  | _, [] => []
  | start, (raw, sep) :: rest =>
    (start, raw) :: placedFrom (start + raw.length + sep.length) rest

/-- The raw statements of a file with the positions at which they start. -/
def placed (content : Text) : List (Nat × Text) :=
  placedFrom 0 (splitStatements content)

/-- The first and the last character of a text that are not blank stand at these positions. -/
structure HasEnds (s : Text) (first last : Nat) : Prop where
  blank_before : ∀ c ∈ s.take first, isBlankChar c = true
  first_not_blank : ∃ c, s[first]? = some c ∧ isBlankChar c = false
  last_not_blank : ∃ c, s[last]? = some c ∧ isBlankChar c = false
  blank_behind : ∀ c ∈ s.drop (last + 1), isBlankChar c = true

/-- A chunk belongs to a raw statement that stands in a file at a position: its text is the raw
statement, trimmed, and its lines are counted by the newlines before the first and the last
character that are not blank. -/
structure IsStatement (path content : Text) (piece : Nat × Text) (c : Chunk) : Prop where
  prefix_drop : piece.2 <+: content.drop piece.1
  path_eq : c.path = path
  content_eq : c.content = piece.2.trim
  lines : ∃ first last, HasEnds piece.2 first last ∧
    c.startLine = newlines (content.take (piece.1 + first)) ∧
    c.endLine = newlines (content.take (piece.1 + last))

/-- A text that is not blank has ends, and the text from one to the other is what trimming leaves. -/
theorem exists_hasEnds {s : Text} (h : s.isBlank = false) :
    ∃ last, HasEnds s (s.takeWhile isBlankChar).length last ∧
      newlines (s.take last) = newlines (s.takeWhile isBlankChar) + newlines s.trim := by
  obtain ⟨z, hwhole, hblank⟩ := Text.exists_trim_append s
  have hne := Text.trim_ne_nil h
  obtain ⟨c, hc⟩ : ∃ c, s.trim.head? = some c := ⟨_, List.head?_eq_some_head hne⟩
  obtain ⟨d, hd⟩ : ∃ d, s.trim.getLast? = some d := ⟨_, List.getLast?_eq_some_getLast hne⟩
  have hfirst := Text.isBlankChar_of_head?_trim hc
  have hlast := Text.isBlankChar_of_getLast?_trim hd
  generalize hlead : s.takeWhile isBlankChar = lead at hwhole ⊢
  generalize s.trim = mid at hwhole hc hd ⊢
  obtain ⟨more, hmore⟩ := List.head?_eq_some_iff.mp hc
  obtain ⟨front, hfront⟩ := List.getLast?_eq_some_iff.mp hd
  have hstart : s = lead ++ c :: (more ++ z) := by rw [hwhole, hmore, List.append_assoc]; rfl
  have hend : s = (lead ++ front) ++ d :: z := by
    rw [hwhole, hfront, ← List.append_assoc, List.append_assoc]
    rfl
  refine ⟨(lead ++ front).length, ⟨?_, ⟨c, ?_, hfirst⟩, ⟨d, ?_, hlast⟩, ?_⟩, ?_⟩
  · rw [hstart, List.take_left]
    exact fun e he => List.mem_takeWhile_imp (hlead ▸ he)
  · rw [hstart, List.getElem?_append_right (Nat.le_refl _), Nat.sub_self]
    rfl
  · rw [hend, List.getElem?_append_right (Nat.le_refl _), Nat.sub_self]
    rfl
  · rw [hend, List.drop_length_add_append]
    exact List.all_eq_true.mp hblank
  · -- the last character is no newline, since it is not blank
    have hne : d ≠ '\n' := fun heq => absurd (heq ▸ hlast) (by decide)
    rw [hend, List.take_left, hfront]
    simp [newlines, List.count_append, hne]

/-- The chunk of a raw statement is the one that belongs to it, in a file that has the raw statement
behind the lines counted before it. -/
theorem isStatement_statementChunk (path a b : Text) {raw : Text} (h : raw.isBlank = false) :
    IsStatement path (a ++ raw ++ b) (a.length, raw) (statementChunk path (newlines a) raw) := by
  obtain ⟨last, hends, hcount⟩ := exists_hasEnds h
  have hlength : last < raw.length := by
    obtain ⟨d, hd, -⟩ := hends.last_not_blank
    exact (List.getElem?_eq_some_iff.mp hd).1
  have htake : ∀ n ≤ raw.length,
      newlines ((a ++ raw ++ b).take (a.length + n)) = newlines a + newlines (raw.take n) := by
    intro n hn
    rw [List.append_assoc, List.take_length_add_append, List.take_append_of_le_length hn, newlines,
      List.count_append]
    rfl
  have hlead : raw.take (raw.takeWhile isBlankChar).length = raw.takeWhile isBlankChar :=
    (List.prefix_iff_eq_take.mp (List.takeWhile_prefix isBlankChar)).symm
  have hfirst : newlines ((a ++ raw ++ b).take (a.length + (raw.takeWhile isBlankChar).length)) =
      newlines a + newlines (raw.takeWhile isBlankChar) := by
    rw [htake _ (List.takeWhile_prefix isBlankChar).length_le, hlead]
  refine ⟨?_, rfl, rfl, _, last, hends, congrArg Nat.cast hfirst.symm, congrArg Nat.cast ?_⟩
  · show raw <+: (a ++ raw ++ b).drop a.length
    rw [List.append_assoc, List.drop_left]
    exact List.prefix_append raw b
  · show newlines a + newlines (raw.takeWhile isBlankChar) + newlines raw.trim = _
    rw [htake last (Nat.le_of_lt hlength), hcount, Nat.add_assoc]

/-- The chunks of raw statements belong to the ones that are not blank, one to each and in their
order. -/
theorem forall₂_statementsFrom (path a : Text) (raws : List (Text × Text)) :
    List.Forall₂ (IsStatement path (a ++ raws.flatMap fun piece => piece.1 ++ piece.2))
      ((placedFrom a.length raws).filter fun piece => !piece.2.isBlank)
      (statementsFrom path (newlines a) raws) := by
  induction raws generalizing a with
  | nil => exact .nil
  | cons piece rest ih =>
    obtain ⟨raw, sep⟩ := piece
    have hlines : newlines (a ++ raw ++ sep) = newlines a + newlines raw + newlines sep := by
      rw [newlines, List.count_append, List.count_append]
      rfl
    have hothers := ih (a ++ raw ++ sep)
    rw [hlines, List.length_append, List.length_append] at hothers
    have hfile : a ++ ((raw, sep) :: rest).flatMap (fun piece => piece.1 ++ piece.2) =
        a ++ raw ++ sep ++ rest.flatMap fun piece => piece.1 ++ piece.2 := by
      simp only [List.flatMap_cons, List.append_assoc]
    rw [hfile, placedFrom, statementsFrom]
    cases hblank : raw.isBlank with
    | true =>
      rw [List.filter_cons_of_neg (by simp [hblank]), if_pos rfl]
      exact hothers
    | false =>
      rw [List.filter_cons_of_pos (by simp [hblank]), if_neg Bool.false_ne_true]
      refine .cons ?_ hothers
      rw [List.append_assoc (a ++ raw)]
      exact isStatement_statementChunk path a _ hblank

/-- A blank file has no statements. -/
theorem statements_eq_nil {path content : Text} (h : content.isBlank = true) :
    statements path content = [] := by
  refine List.eq_nil_iff_forall_not_mem.mpr fun c hc => ?_
  obtain ⟨front, raw, sep, rest, hraws, hblank, -⟩ := exists_of_mem_statementsFrom hc
  rw [← flatMap_splitStatements content, hraws, Text.isBlank] at h
  simp only [List.flatMap_append, List.flatMap_cons, List.all_append, Bool.and_eq_true] at h
  obtain ⟨-, ⟨hraw, -⟩, -⟩ := h
  exact Bool.false_ne_true (hblank.symm.trans hraw)

/-- The chunker for query files cuts every file, a blank one as well, into its statements. -/
theorem chunk?_chunker (extensions : List Text) (path content : Text) :
    (chunker extensions).chunk? path content = some (statements path content) := by
  show some (if content.isBlank then [] else statements path content) = _
  split
  · rename_i hblank
    rw [statements_eq_nil hblank]
  · rfl

/-- The pieces of a query file and their separators are the file again; every separator but the last
one, which is empty, ends a line with a semicolon, and no piece contains such an end. The chunks of
the file are those of the pieces that are not blank, in their order, each with its trimmed text and
with the lines on which its first and its last character stand. Each chunk starts below the last line
of the one before. -/
theorem statements_of_pieces (extensions : List Text) (path content : Text) :
    ((splitStatements content).flatMap fun piece => piece.1 ++ piece.2) = content ∧
      (∃ parts last, splitStatements content = parts ++ [(last, [])] ∧
        ∀ part ∈ parts, IsSeparator part.2) ∧
      (∀ piece ∈ splitStatements content, ∀ sep, IsSeparator sep → ¬ sep <:+: piece.1) ∧
      ∃ chunks, (chunker extensions).chunk? path content = some chunks ∧
        List.Forall₂ (IsStatement path content)
          ((placed content).filter fun piece => !piece.2.isBlank) chunks ∧
        chunks.Pairwise fun c d => c.endLine < d.startLine := by
  have hchunks := forall₂_statementsFrom path [] (splitStatements content)
  rw [List.nil_append, flatMap_splitStatements] at hchunks
  refine ⟨flatMap_splitStatements content, ⟨_, _, rfl, fun part hpart => ?_⟩,
    fun piece hpiece sep hsep => not_infix_of_mem_splitStatements hsep hpiece,
    statements path content, chunk?_chunker extensions path content, hchunks,
    pairwise_statements path content⟩
  obtain ⟨t, rest, hread⟩ := Pattern.exists_of_mem_splitAfter hpart
  exact isSeparator_of_separator hread

/-- A migration of two statements, with a blank line and a line of blanks between them. -/
theorem statements_of_pieces_of_migration :
    let content := "create table a (\n);\n\n \nselect 1; \n".toList
    ("create table a (\n)".toList, ";\n".toList) ∈ splitStatements content ∧
      IsSeparator "; \n".toList ∧ ¬ "; \n".toList <:+: "create table a (\n)".toList ∧
      (statements "a.sql".toList content).map (fun c => (c.startLine, c.endLine)) =
        [(0, 1), (4, 4)] ∧
      (statements "a.sql".toList content).Pairwise fun c d => c.endLine < d.startLine := by
  intro content
  obtain ⟨-, -, hpieces, chunks, hread, -, hpairwise⟩ :=
    statements_of_pieces defaultExtensions "a.sql".toList content
  have hpiece : ("create table a (\n)".toList, ";\n".toList) ∈ splitStatements content := by
    decide +kernel
  have hsep : IsSeparator "; \n".toList := ⟨[' '], rfl, by simp⟩
  have hchunks : statements "a.sql".toList content = chunks :=
    Option.some.inj ((chunk?_chunker defaultExtensions _ content).symm.trans hread)
  rw [← hchunks] at hpairwise
  exact ⟨hpiece, hsep, hpieces _ hpiece _ hsep, by decide +kernel, hpairwise⟩

end QueryFile

end SourceIndex
