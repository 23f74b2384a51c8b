import SourceIndex.Text.Pattern
import Mathlib.Data.List.TakeDrop
import Mathlib.Data.List.TakeWhile

/-!
# Lines, blanks, words and order of texts

A text has one line more than newlines. Trimming takes blanks off a text, and none is a word
character, so a word is not blank. The digits of a number tell it and have no colon. Not coming
before one another, in the order of code points, is a linear order of texts.
-/

namespace SourceIndex

/-- A text has one line more than newlines. -/
theorem Text.length_lines (s : Text) : s.lines.length = s.count '\n' + 1 := by
  unfold lines
  induction s with
  | nil => rfl
  | cons c rest ih =>
    rw [List.splitOn_cons_eq_if_modifyHead]
    by_cases hc : c = '\n'
    · rw [if_pos (by simpa using hc), List.length_cons, ih, hc, List.count_cons_self]
    · rw [if_neg (by simpa using hc), List.length_modifyHead, ih, List.count_cons_of_ne hc]

/-- What stands on either side of a separator is split on its own. -/
theorem Text.splitOn_append_cons (c : Char) (s t : Text) :
    (s ++ c :: t).splitOn c = s.splitOn c ++ t.splitOn c := by
  simp only [List.splitOn_eq_splitOnP]
  exact List.splitOnP_append_cons s t (beq_self_eq_true c)

/-- A text without separators is one part. -/
theorem Text.splitOn_of_not_mem {s : Text} {c : Char} (h : c ∉ s) : s.splitOn c = [s] := by
  rw [List.splitOn_eq_splitOnP, List.splitOnP_eq_singleton]
  intro d hd
  rw [beq_eq_false_iff_ne]
  rintro rfl
  exact h hd

/-- A newline ends the lines before it. -/
theorem Text.lines_append_newline (s t : Text) : lines (s ++ '\n' :: t) = lines s ++ lines t :=
  splitOn_append_cons '\n' s t

/-- A text without newlines is one line. -/
theorem Text.lines_eq_singleton {s : Text} (h : '\n' ∉ s) : lines s = [s] :=
  splitOn_of_not_mem h

/-! ## Blanks and word characters -/

/-- What lies in one of the ranges lies between the ends of one. -/
theorem exists_of_inRanges {ranges : List (Nat × Nat)} {n : Nat} (h : inRanges ranges n = true) :
    ∃ r ∈ ranges, r.1 ≤ n ∧ n ≤ r.2 := by
  induction ranges with
  | nil => cases h
  | cons r rest ih =>
    obtain ⟨first, last⟩ := r
    rw [inRanges] at h
    split at h
    · cases h
    · rename_i hfirst
      split at h
      · rename_i hlast
        exact ⟨(first, last), List.mem_cons_self, Nat.le_of_not_lt hfirst, hlast⟩
      · obtain ⟨r, hr, hbounds⟩ := ih h
        exact ⟨r, List.mem_cons_of_mem _ hr, hbounds⟩

/-- No code point of a blank is that of a word character. -/
theorem inRanges_wordRanges_of_blank : ∀ r ∈ blankRanges,
    ∀ n ∈ List.range' r.1 (r.2 + 1 - r.1), inRanges wordRanges n = false := by
  decide +kernel

/-- What holds of every code point of a blank holds of that of a blank character. -/
theorem of_isBlankChar {P : Nat → Prop}
    (h : ∀ r ∈ blankRanges, ∀ n ∈ List.range' r.1 (r.2 + 1 - r.1), P n) {c : Char}
    (hc : isBlankChar c = true) : P c.toNat := by
  -- the blank code points are few enough to look each of them up
  obtain ⟨r, hr, hfirst, hlast⟩ := exists_of_inRanges hc
  refine h r hr c.toNat ?_
  rw [List.mem_range'_1]
  omega

/-- A word character is not blank. -/
theorem isBlankChar_of_isWordChar {c : Char} (h : isWordChar c = true) : isBlankChar c = false := by
  by_contra hblank
  rw [Bool.not_eq_false] at hblank
  have hword : inRanges wordRanges c.toNat = true := h
  rw [of_isBlankChar inRanges_wordRanges_of_blank hblank] at hword
  cases hword

namespace Text

/-- A text with a character that is not blank is not blank. -/
theorem isBlank_eq_false {s : Text} {c : Char} (hc : c ∈ s) (h : isBlankChar c = false) :
    s.isBlank = false := by
  rw [isBlank, List.all_eq_false]
  exact ⟨c, hc, by simp [h]⟩

/-- A blank text has no character that is not blank. -/
theorem not_mem_of_isBlank {s : Text} (hs : s.isBlank = true) {c : Char}
    (hc : isBlankChar c = false) : c ∉ s := fun hmem =>
  Bool.false_ne_true ((isBlank_eq_false hmem hc).symm.trans hs)

/-- The word at the start of a text is not empty, and the text goes on behind it. -/
theorem of_takeWord_eq_some {s w rest : Text} (h : s.takeWord = some (w, rest)) :
    s = w ++ rest ∧ w ≠ [] ∧ ∀ c ∈ w, isWordChar c = true := by
  rw [takeWord, List.span_eq_takeWhile_dropWhile] at h
  cases hw : s.takeWhile isWordChar with
  | nil => simp [hw] at h
  | cons c more =>
    simp only [hw, Option.some.injEq, Prod.mk.injEq] at h
    obtain ⟨rfl, rfl⟩ := h
    refine ⟨by rw [← hw, List.takeWhile_append_dropWhile], by simp, ?_⟩
    exact fun d hd => List.mem_takeWhile_imp (hw ▸ hd)

/-- A word is not blank. -/
theorem isBlank_of_takeWord {s w rest : Text} (h : s.takeWord = some (w, rest)) :
    w.isBlank = false := by
  obtain ⟨-, hne, hword⟩ := of_takeWord_eq_some h
  obtain ⟨c, hc⟩ := List.exists_mem_of_ne_nil w hne
  exact isBlank_eq_false hc (isBlankChar_of_isWordChar (hword c hc))

/-! ## Trimming -/

/-- A text is its first blanks and the rest. -/
theorem takeWhile_append_trimStart (s : Text) : s.takeWhile isBlankChar ++ s.trimStart = s :=
  List.takeWhile_append_dropWhile

/-- A text is the rest and its last blanks. -/
theorem exists_trimEnd_append (s : Text) : ∃ z : Text, s = s.trimEnd ++ z ∧ z.isBlank = true := by
  refine ⟨(s.reverse.takeWhile isBlankChar).reverse, ?_, ?_⟩
  · rw [trimEnd, ← List.reverse_append, List.takeWhile_append_dropWhile, List.reverse_reverse]
  · rw [isBlank, List.all_reverse]
    exact List.all_takeWhile

/-- A text is its first blanks, what trimming leaves of it, and its last blanks. -/
theorem exists_trim_append (s : Text) :
    ∃ z : Text, s = s.takeWhile isBlankChar ++ s.trim ++ z ∧ z.isBlank = true := by
  obtain ⟨z, hz, hblank⟩ := exists_trimEnd_append s.trimStart
  refine ⟨z, ?_, hblank⟩
  rw [List.append_assoc]
  exact (takeWhile_append_trimStart s).symm.trans (congrArg _ hz)

/-- Trimming leaves something of a text that is not blank. -/
theorem trim_ne_nil {s : Text} (h : s.isBlank = false) : s.trim ≠ [] := by
  intro hnil
  obtain ⟨z, hwhole, hblank⟩ := exists_trim_append s
  rw [hnil, List.append_nil] at hwhole
  rw [hwhole, isBlank, List.all_append, List.all_takeWhile, Bool.true_and] at h
  exact Bool.false_ne_true (h.symm.trans hblank)

/-- Trimming leaves nothing of a blank text. -/
theorem trim_eq_nil {s : Text} (h : s.isBlank = true) : s.trim = [] := by
  rw [trim, trimStart, List.dropWhile_eq_nil_iff.mpr (List.all_eq_true.mp h)]
  rfl

/-- Only a blank text has nothing left when it is trimmed. -/
theorem isBlank_of_trim_eq_nil {s : Text} (h : s.trim = []) : s.isBlank = true := by
  by_contra hblank
  rw [Bool.not_eq_true] at hblank
  exact trim_ne_nil hblank h

/-- Trimming keeps what is not blank. -/
theorem mem_trim_iff {s : Text} {c : Char} (hc : isBlankChar c = false) : c ∈ s.trim ↔ c ∈ s := by
  obtain ⟨z, hwhole, hblank⟩ := exists_trim_append s
  have hends : ∀ d ∈ s.takeWhile isBlankChar ++ z, isBlankChar d = true := by
    intro d hd
    rcases List.mem_append.mp hd with hd | hd
    · exact List.mem_takeWhile_imp hd
    · exact List.all_eq_true.mp hblank d hd
  have hnot : c ∉ s.takeWhile isBlankChar ++ z := fun hmem =>
    Bool.false_ne_true (hc.symm.trans (hends c hmem))
  rw [List.mem_append, not_or] at hnot
  conv_rhs => rw [hwhole, List.mem_append, List.mem_append]
  exact ⟨fun h => .inl (.inr h), fun h => (h.resolve_right hnot.2).resolve_left hnot.1⟩

/-- A trimmed text does not start with a blank. -/
theorem isBlankChar_of_head?_trim {s : Text} {c : Char} (h : s.trim.head? = some c) :
    isBlankChar c = false := by
  obtain ⟨z, hz, -⟩ := exists_trimEnd_append s.trimStart
  have hhead : (s.dropWhile isBlankChar).head? = some c := by
    show s.trimStart.head? = _
    rw [hz, List.head?_append]
    exact Option.or_eq_some_iff.mpr (.inl h)
  have hnot := List.head?_dropWhile_not isBlankChar s
  rwa [hhead] at hnot

/-- A trimmed text does not end with a blank. -/
theorem isBlankChar_of_getLast?_trim {s : Text} {c : Char} (h : s.trim.getLast? = some c) :
    isBlankChar c = false := by
  have hlast : (s.trimStart.reverse.dropWhile isBlankChar).head? = some c := by
    rw [← List.getLast?_reverse]
    exact h
  have hnot := List.head?_dropWhile_not isBlankChar s.trimStart.reverse
  rwa [hlast] at hnot

/-- A text that starts with a character that is not blank is trimmed at its start. -/
theorem trimStart_cons {c : Char} {s : Text} (h : isBlankChar c = false) :
    trimStart (c :: s) = c :: s := by
  rw [trimStart, List.dropWhile_cons_of_neg (by simp [h])]

/-- The first blanks and the trimmed text have no more newlines than the text. -/
theorem count_takeWhile_add_count_trim_le (s : Text) :
    (s.takeWhile isBlankChar).count '\n' + s.trim.count '\n' ≤ s.count '\n' := by
  obtain ⟨z, hwhole, -⟩ := exists_trim_append s
  conv_rhs => rw [hwhole, List.count_append, List.count_append]
  exact Nat.le_add_right _ _

/-! ## Blanks at the ends -/

/-- A text that starts with a blank starts with no word without blanks. -/
theorem after?_cons_of_isBlankChar {c : Char} {s w : Text} (hc : isBlankChar c = true)
    (hw : ∀ d ∈ w, isBlankChar d = false) (hne : w ≠ []) : after? (c :: s) w = none := by
  cases w with
  | nil => exact absurd rfl hne
  | cons d w =>
    have hcd : (c == d) = false := by
      rw [beq_eq_false_iff_ne]
      rintro rfl
      rw [hw c List.mem_cons_self] at hc
      cases hc
    rw [after?, if_neg (by simp [hcd])]

section Append

variable {t z w r : Text}

/-- Blanks at the end of a text stay behind a word that it starts with. -/
theorem after?_append (hz : z.isBlank = true) (hw : ∀ c ∈ w, isBlankChar c = false) :
    (t ++ z).after? w = (t.after? w).map (· ++ z) := by
  induction w generalizing t with
  | nil => cases t <;> simp [after?]
  | cons d w ih =>
    have htail : ∀ c ∈ w, isBlankChar c = false := fun c hc => hw c (List.mem_cons_of_mem _ hc)
    cases t with
    | nil =>
      cases z with
      | nil => rfl
      | cons c z =>
        have hc : isBlankChar c = true := List.all_eq_true.mp hz c List.mem_cons_self
        exact after?_cons_of_isBlankChar hc hw (List.cons_ne_nil d w)
    | cons c t =>
      rw [List.cons_append, after?, after?]
      split
      · exact ih htail
      · rfl

/-- Blanks at the end of a text stay behind whichever word it starts with. -/
theorem afterOneOf?_append (hz : z.isBlank = true) {words : List Text}
    (hwords : ∀ w ∈ words, ∀ c ∈ w, isBlankChar c = false) :
    (t ++ z).afterOneOf? words = (t.afterOneOf? words).map fun (w, s) => (w, s ++ z) := by
  unfold afterOneOf?
  induction words with
  | nil => rfl
  | cons w words ih =>
    rw [List.findSome?_cons, List.findSome?_cons, after?_append hz (hwords w List.mem_cons_self)]
    cases t.after? w with
    | none => exact ih fun w hw => hwords w (List.mem_cons_of_mem _ hw)
    | some s => rfl

/-- Blanks at the end of a text stay behind those at its start if the text has anything else. -/
theorem afterBlanks?_append (hz : z.isBlank = true) (h : (t ++ z).afterBlanks? = some r)
    (hr : r ≠ []) : ∃ s, t.afterBlanks? = some s ∧ r = s ++ z := by
  have htrim : z.trimStart = [] := List.dropWhile_eq_nil_iff.mpr (List.all_eq_true.mp hz)
  cases t with
  | nil =>
    cases z with
    | nil => cases h
    | cons c z =>
      have hblank : isBlankChar c = true := List.all_eq_true.mp hz c List.mem_cons_self
      rw [List.nil_append, afterBlanks?, if_pos hblank, Option.some.injEq] at h
      rw [trimStart, List.dropWhile_cons_of_pos hblank] at htrim
      exact absurd (h.symm.trans htrim) hr
  | cons c t =>
    rw [List.cons_append, afterBlanks?] at h
    split at h
    · rename_i hblank
      rw [Option.some.injEq, trimStart, List.dropWhile_append] at h
      refine ⟨trimStart t, by rw [afterBlanks?, if_pos hblank], ?_⟩
      -- if only blanks follow, trimming leaves nothing of the blanks at the end either
      split at h
      · exact absurd (h.symm.trans htrim) hr
      · exact h.symm
    · cases h

/-- A text without blanks at its start has none without the blanks at its end. -/
theorem afterBlanks?_eq_none (h : (t ++ z).afterBlanks? = none) : t.afterBlanks? = none := by
  cases t with
  | nil => rfl
  | cons c t =>
    rw [List.cons_append, afterBlanks?] at h
    split at h
    · cases h
    · rename_i hblank
      rw [afterBlanks?, if_neg hblank]

/-- Blanks at the end of a text stay behind an optional word if the text has anything else. -/
theorem skipWord_append (hz : z.isBlank = true) (hw : ∀ c ∈ w, isBlankChar c = false)
    (hr : (t ++ z).skipWord w ≠ []) : (t ++ z).skipWord w = t.skipWord w ++ z := by
  unfold skipWord at hr ⊢
  rw [after?_append hz hw] at hr ⊢
  cases hafter : t.after? w with
  | none => rfl
  | some s =>
    rw [hafter, Option.map_some, Option.bind_some] at hr
    rw [Option.map_some, Option.bind_some, Option.bind_some]
    cases hblanks : (s ++ z).afterBlanks? with
    | none => rw [afterBlanks?_eq_none hblanks, Option.getD_none, Option.getD_none]
    | some r =>
      rw [hblanks, Option.getD_some] at hr
      obtain ⟨q, hq, hrest⟩ := afterBlanks?_append hz hblanks hr
      rw [hq, Option.getD_some, Option.getD_some, hrest]

/-- Blanks at the end of a text stay behind the word at its start. -/
theorem takeWord_append (hz : z.isBlank = true) :
    (t ++ z).takeWord = t.takeWord.map fun (w, s) => (w, s ++ z) := by
  -- the word ends before the blanks, since none of them is a word character
  have hnone : z.takeWhile isWordChar = [] ∧ z.dropWhile isWordChar = z := by
    cases z with
    | nil => exact ⟨rfl, rfl⟩
    | cons c z =>
      have hc : isWordChar c = false := by
        by_contra hword
        rw [Bool.not_eq_false] at hword
        have hblank := List.all_eq_true.mp hz c List.mem_cons_self
        rw [isBlankChar_of_isWordChar hword] at hblank
        cases hblank
      simp [hc]
  have hspan : (t ++ z).takeWhile isWordChar = t.takeWhile isWordChar ∧
      (t ++ z).dropWhile isWordChar = t.dropWhile isWordChar ++ z := by
    induction t with
    | nil => exact hnone
    | cons c t ih => cases hc : isWordChar c <;> simp [hc, ih]
  unfold takeWord
  rw [List.span_eq_takeWhile_dropWhile, List.span_eq_takeWhile_dropWhile, hspan.1, hspan.2]
  cases t.takeWhile isWordChar <;> rfl

end Append

/-! ## Digits -/

/-- The digits of a number are digits. -/
theorem isDigit_of_mem_ofNat {n : Nat} {c : Char} (h : c ∈ ofNat n) : c.isDigit = true :=
  Nat.isDigit_of_mem_toDigits (by decide) (by decide) h

/-- Numbers with the same digits are the same. -/
theorem ofNat_inj {m n : Nat} (h : ofNat m = ofNat n) : m = n := by
  have hvalue := congrArg (Nat.ofDigitChars 10 · 0) h
  simpa only [ofNat, Nat.ofDigitChars_ten_toDigits] using hvalue

/-- A written integer has no colon. -/
theorem colon_not_mem_ofInt (n : Int) : ':' ∉ ofInt n := by
  have hdigits : ∀ n : Nat, ':' ∉ ofNat n := fun n h => absurd (isDigit_of_mem_ofNat h) (by decide)
  cases n with
  | ofNat n => exact hdigits n
  | negSucc n =>
    rw [ofInt, List.mem_cons, not_or]
    exact ⟨by decide, hdigits (n + 1)⟩

/-- Integers that are written alike are the same. -/
theorem ofInt_inj {m n : Int} (h : ofInt m = ofInt n) : m = n := by
  have hsign : ∀ a b : Nat, ofNat a ≠ '-' :: ofNat b := fun a b e =>
    absurd (isDigit_of_mem_ofNat (e ▸ List.mem_cons_self : '-' ∈ ofNat a)) (by decide)
  cases m with
  | ofNat m =>
    cases n with
    | ofNat n => rw [ofNat_inj h]
    | negSucc n => exact absurd h (hsign m (n + 1))
  | negSucc m =>
    cases n with
    | ofNat n => exact absurd h.symm (hsign n (m + 1))
    | negSucc n =>
      have hsucc := ofNat_inj (List.cons.inj h).2
      rw [Nat.succ.inj hsucc]

/-- Two texts that are the same up to their last colon and end in an integer behind it have the same
integer there. -/
theorem eq_of_append_colon_eq {a b : Text} {m n : Int}
    (h : a ++ ':' :: ofInt m = b ++ ':' :: ofInt n) : m = n := by
  have hrev := congrArg List.reverse h
  simp only [List.reverse_append, List.reverse_cons, List.append_assoc, List.singleton_append]
    at hrev
  have hother : ∀ n, ∀ c ∈ (ofInt n).reverse, (c != ':') = true := by
    intro n c hc
    rw [bne_iff_ne]
    rintro rfl
    exact colon_not_mem_ofInt n (List.mem_reverse.mp hc)
  -- from the end, both texts have their first colon right behind the integer
  have htake := congrArg (List.takeWhile (· != ':')) hrev
  rw [List.takeWhile_append_of_pos (hother m), List.takeWhile_append_of_pos (hother n)] at htake
  exact ofInt_inj (by simpa using htake)

/-- What stands before a colon, if it has no colon itself, reaches to the first one. -/
theorem takeWhile_append_colon {a : Text} (h : ':' ∉ a) (s : Text) :
    (a ++ ':' :: s).takeWhile (· != ':') = a := by
  have hother : ∀ c ∈ a, (c != ':') = true := by
    intro c hc
    rw [bne_iff_ne]
    rintro rfl
    exact h hc
  rw [List.takeWhile_append_of_pos hother]
  simp

/-- Two texts that are the same and have no colon up to their first one are the same before and behind
it. -/
theorem append_colon_inj {a b s t : Text} (ha : ':' ∉ a) (hb : ':' ∉ b)
    (h : a ++ ':' :: s = b ++ ':' :: t) : a = b ∧ s = t := by
  have htake := congrArg (List.takeWhile (· != ':')) h
  rw [takeWhile_append_colon ha, takeWhile_append_colon hb] at htake
  subst htake
  exact ⟨rfl, (List.cons.inj (List.append_cancel_left h)).2⟩

/-! ## Order -/

/-- Coming before another text is the order of lists of code points. -/
theorem not_precedes_iff {s t : Text} :
    (!t.precedes s) = true ↔ ¬List.Lex (fun c d : Char => c.toNat < d.toNat) t s := by
  rw [Bool.not_eq_true', ← Bool.not_eq_true, precedes, List.lex_eq_true_iff_lex]
  simp only [decide_eq_true_eq]

theorem eq_of_not_precedes {s t : Text} (hst : (!t.precedes s) = true)
    (hts : (!s.precedes t) = true) : s = t := by
  rw [not_precedes_iff] at hst hts
  refine List.lex_trichotomous ?_ hst hts
  intro c d hcd hdc
  exact Char.toNat_inj.mp (by omega)

theorem not_precedes_total (s t : Text) :
    (!t.precedes s) = true ∨ (!s.precedes t) = true := by
  rw [not_precedes_iff, not_precedes_iff]
  by_cases h : List.Lex (fun c d : Char => c.toNat < d.toNat) t s
  · exact .inr (List.lex_asymm Nat.lt_asymm h)
  · exact .inl h

theorem not_precedes_trans {s t u : Text} (hst : (!t.precedes s) = true)
    (htu : (!u.precedes t) = true) : (!u.precedes s) = true := by
  by_cases hut : (!t.precedes u) = true
  · rwa [← eq_of_not_precedes htu hut]
  · rw [not_precedes_iff, not_not] at hut
    rw [not_precedes_iff] at hst ⊢
    exact fun hus => hst (List.lex_trans Nat.lt_trans hut hus)

end Text

end SourceIndex
