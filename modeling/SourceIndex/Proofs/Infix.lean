import SourceIndex.Proofs.Pattern
import SourceIndex.Proofs.Text
import Mathlib.Data.List.Infix

/-!
# Parts of texts

What the functions on texts give is part of the text that they are given: a substring, or what is left
at its end. A part of a text has its lines within the lines of the text, below as many lines as there
are newlines before it.
-/

namespace SourceIndex

namespace Text

/-! ## Substrings -/

/-- A text contains the words that are part of it. -/
theorem contains_iff {s w : Text} : s.contains w = true ↔ w <:+: s := by
  induction s with
  | nil => rw [contains, Bool.or_false, List.isPrefixOf_iff_prefix, List.prefix_nil, List.infix_nil]
  | cons c s ih =>
    rw [contains, Bool.or_eq_true, List.isPrefixOf_iff_prefix, List.infix_cons_iff, ← ih]

/-- The parts of a split text are parts of it. -/
theorem infix_of_mem_splitOn {s part : Text} {c : Char} (h : part ∈ s.splitOn c) :
    part <:+: s := by
  obtain ⟨i, hi⟩ := List.mem_iff_getElem?.mp h
  have hwhole : [c].intercalate (s.splitOn c) = s := List.intercalate_splitOn c
  rw [← hwhole]
  refine List.infix_of_mem_flatten (List.mem_of_getElem? (i := 2 * i) ?_)
  rwa [List.getElem?_intersperse_two_mul]

/-! ## What is left of a text -/

/-- A text that starts with a word is the word and the rest. -/
theorem eq_append_of_after? {s w rest : Text} (h : s.after? w = some rest) : s = w ++ rest := by
  induction w generalizing s with
  | nil =>
    rw [after?, Option.some.injEq] at h
    exact h
  | cons d w ih =>
    cases s with
    | nil => cases h
    | cons c s =>
      rw [after?] at h
      split at h
      · rename_i hc
        rw [eq_of_beq hc, List.cons_append, ih h]
      · cases h

theorem suffix_of_after? {s w rest : Text} (h : s.after? w = some rest) : rest <:+ s :=
  ⟨w, (eq_append_of_after? h).symm⟩

theorem trimStart_suffix (s : Text) : s.trimStart <:+ s :=
  List.dropWhile_suffix _

theorem infix_trim (s : Text) : s.trim <:+: s := by
  obtain ⟨z, hwhole, -⟩ := exists_trim_append s
  exact ⟨_, z, hwhole.symm⟩

theorem suffix_of_afterBlanks? {s rest : Text} (h : s.afterBlanks? = some rest) : rest <:+ s := by
  cases s with
  | nil => cases h
  | cons c s =>
    rw [afterBlanks?] at h
    split at h
    · cases h
      exact (trimStart_suffix s).trans (List.suffix_cons c s)
    · cases h

theorem skipWord_suffix (s w : Text) : s.skipWord w <:+ s := by
  rw [skipWord]
  cases hafter : s.after? w with
  | none => exact List.suffix_refl s
  | some t =>
    cases hblanks : t.afterBlanks? with
    | none =>
      rw [Option.bind_some, hblanks]
      exact List.suffix_refl s
    | some r =>
      rw [Option.bind_some, hblanks]
      exact (suffix_of_afterBlanks? hblanks).trans (suffix_of_after? hafter)

/-- The word at the start of a text and what is left are parts of it. -/
theorem infix_of_takeWord {s w rest : Text} (h : s.takeWord = some (w, rest)) :
    w <:+: s ∧ rest <:+ s := by
  obtain ⟨rfl, -, -⟩ := of_takeWord_eq_some h
  exact ⟨(List.prefix_append w rest).isInfix, List.suffix_append w rest⟩

end Text

/-- The first find of a pattern is read at some place of the text. -/
theorem Pattern.exists_suffix_of_find? {α : Type} {p : Pattern α} {s : Text} {a : α}
    (h : p.find? s = some a) : ∃ t rest, t <:+ s ∧ p t = some (a, rest) := by
  induction s with
  | nil => cases h
  | cons c s ih =>
    rw [find?] at h
    split at h
    · rename_i b rest hfound
      cases h
      exact ⟨c :: s, rest, List.suffix_refl _, hfound⟩
    · obtain ⟨t, rest, hsuffix, hfound⟩ := ih h
      exact ⟨t, rest, hsuffix.trans (List.suffix_cons c s), hfound⟩

/-! ## Lines -/

namespace Text

theorem lines_newline_cons (s : Text) : lines ('\n' :: s) = [] :: lines s :=
  lines_append_newline [] s

theorem lines_cons_of_ne {c : Char} (hc : c ≠ '\n') (s : Text) :
    lines (c :: s) = (lines s).modifyHead (c :: ·) := by
  rw [lines, List.splitOn_cons_eq_if_modifyHead, if_neg (by simpa using hc)]
  rfl

/-- Lines without newlines are the lines of the text that they make. -/
theorem lines_unlines {ls : List Text} (hne : ls ≠ []) (h : ∀ l ∈ ls, '\n' ∉ l) :
    (unlines ls).lines = ls :=
  List.splitOn_intercalate '\n' h hne

/-- Text that follows only lengthens the lines of a text. -/
theorem exists_line_append {s line : Text} {i : Nat} (h : s.lines[i]? = some line) (z : Text) :
    ∃ whole, (s ++ z).lines[i]? = some whole ∧ line <+: whole := by
  induction s generalizing i line with
  | nil =>
    obtain ⟨rfl, rfl⟩ : i = 0 ∧ line = [] := by
      cases i with
      | zero => exact ⟨rfl, (Option.some.inj h).symm⟩
      | succ i => cases h
    obtain ⟨first, others, hlines⟩ := List.exists_cons_of_ne_nil (List.splitOn_ne_nil '\n' z)
    exact ⟨first, by rw [List.nil_append, lines, hlines]; rfl, List.nil_prefix⟩
  | cons c s ih =>
    rw [List.cons_append]
    by_cases hc : c = '\n'
    · subst hc
      rw [lines_newline_cons] at h ⊢
      cases i with
      | zero =>
        cases h
        exact ⟨[], rfl, List.nil_prefix⟩
      | succ i => exact ih h
    · rw [lines_cons_of_ne hc, List.getElem?_modifyHead] at h ⊢
      cases i with
      | zero =>
        obtain ⟨rest, hrest, rfl⟩ := Option.map_eq_some_iff.mp h
        obtain ⟨whole, hwhole, hfront⟩ := ih hrest
        exact ⟨c :: whole, by rw [if_pos rfl, hwhole]; rfl, (List.prefix_cons_inj c).mpr hfront⟩
      | succ i => exact ih h

/-- Text in front moves the lines of a text down and only lengthens them. -/
theorem exists_line_of_append {s line : Text} {i : Nat} (a : Text) (h : s.lines[i]? = some line) :
    ∃ whole, (a ++ s).lines[a.count '\n' + i]? = some whole ∧ line <:+ whole := by
  induction a with
  | nil => exact ⟨line, by rwa [List.count_nil, Nat.zero_add], List.suffix_refl line⟩
  | cons c a ih =>
    obtain ⟨whole, hwhole, hsuffix⟩ := ih
    rw [List.cons_append]
    by_cases hc : c = '\n'
    · subst hc
      rw [lines_newline_cons, List.count_cons_self, Nat.add_right_comm]
      exact ⟨whole, hwhole, hsuffix⟩
    · rw [lines_cons_of_ne hc, List.count_cons_of_ne hc, List.getElem?_modifyHead]
      split
      · exact ⟨c :: whole, by rw [hwhole]; rfl, hsuffix.trans (List.suffix_cons c whole)⟩
      · exact ⟨whole, hwhole, hsuffix⟩

/-- The lines of a part of a text lie within its lines, below the newlines before the part. -/
theorem exists_line_of_part {s line : Text} {i : Nat} (a b : Text) (h : s.lines[i]? = some line) :
    ∃ whole, (a ++ s ++ b).lines[a.count '\n' + i]? = some whole ∧ line <:+: whole := by
  obtain ⟨part, hpart, hsuffix⟩ := exists_line_of_append a h
  obtain ⟨whole, hwhole, hfront⟩ := exists_line_append hpart b
  exact ⟨whole, hwhole, hsuffix.isInfix.trans hfront.isInfix⟩

end Text

end SourceIndex
