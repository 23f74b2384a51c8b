import SourceIndex.Ranking
import SourceIndex.Proofs.Case
import SourceIndex.Proofs.Text

/-!
# Terms are found word by word

A character that is part of no word becomes a blank before a text is lowered, and a blank neither
has a case nor is passed over when a sigma looks for its neighbours. So what stands on either side
of it is lowered on its own (`Text.lower_append_cons`) and has its own terms (`terms_append_cons`).
Everything about the terms of a text follows from this one equation: they are the terms of its
parts, wherever it is cut, and in the end those of its words.
-/

namespace SourceIndex

/-! ## Case across a blank -/

/-- A character that keeps its form and hides the case of what stands behind it from what stands in
front of it. -/
structure IsCaseBoundary (c : Char) : Prop where
  isLow : IsLow c
  isCaseIgnored_eq : isCaseIgnored c = false
  isCased_eq : isCased c = false

/-- No code point of a blank has a case, is passed over or has another form. -/
theorem caseless_of_blank : ∀ r ∈ blankRanges, ∀ n ∈ List.range' r.1 (r.2 + 1 - r.1),
    inRanges caseIgnoredRanges n = false ∧ inRuns casedRuns n = false ∧
      lowerIn caseRuns n = n ∧ n ≠ 'İ'.toNat ∧ n ≠ 'Σ'.toNat := by
  decide +kernel

theorem isCaseBoundary_of_isBlankChar {c : Char} (h : isBlankChar c = true) : IsCaseBoundary c := by
  obtain ⟨hignored, hcased, hlow, hdotted, hsigma⟩ := of_isBlankChar caseless_of_blank h
  refine ⟨⟨?_, ?_, ?_⟩, hignored, hcased⟩
  · rintro rfl
    exact hdotted rfl
  · rintro rfl
    exact hsigma rfl
  · rw [lowerChar, hlow, Char.ofNat_toNat]

namespace Text

/-- What stands behind a boundary does not count as a neighbour of what stands in front of it. -/
theorem startsCased_append_cons {c : Char} (hc : IsCaseBoundary c) (s t : Text) :
    startsCased (s ++ c :: t) = startsCased s := by
  have hfind : (c :: t).find? (fun d => !isCaseIgnored d) = some c :=
    List.find?_cons_of_pos (by rw [hc.isCaseIgnored_eq]; rfl)
  unfold startsCased
  rw [List.find?_append, hfind]
  cases s.find? (fun d => !isCaseIgnored d) with
  | none => exact hc.isCased_eq
  | some d => rfl

theorem lowerFrom_append_cons {c : Char} (hc : IsCaseBoundary c) (s t : Text) (afterCased : Bool) :
    lowerFrom afterCased (s ++ c :: t) = lowerFrom afterCased s ++ c :: lower t := by
  induction s generalizing afterCased with
  | nil =>
    obtain ⟨hdotted, hsigma, hlow⟩ := hc.isLow
    simp [lowerFrom, hdotted, hsigma, hlow, hc.isCaseIgnored_eq, hc.isCased_eq, lower]
  | cons d s ih =>
    rw [List.cons_append, lowerFrom, lowerFrom, startsCased_append_cons hc, ih, List.append_assoc]

/-- What stands on either side of a boundary is lowered on its own. -/
theorem lower_append_cons {c : Char} (hc : IsCaseBoundary c) (s t : Text) :
    lower (s ++ c :: t) = lower s ++ c :: lower t :=
  lowerFrom_append_cons hc s t false

/-- What stands on either side of a blank has its own words. -/
theorem words_append_cons {c : Char} (hc : isBlankChar c = true) (s t : Text) :
    words (s ++ c :: t) = words s ++ words t := by
  unfold words
  rw [List.splitOnP_append_cons s t hc, List.filter_append]

/-! ## Parts of a text -/

/-- What holds of a part on its own, and of a part in front of a text if it holds of that text,
holds of every text and its parts. -/
theorem splitOnP_induction {p : Char → Bool} {motive : Text → List Text → Prop}
    (single : ∀ part : Text, (∀ c ∈ part, p c = false) → motive part [part])
    (cons : ∀ (part : Text) (c : Char) (s : Text), (∀ d ∈ part, p d = false) → p c = true →
      motive s (s.splitOnP p) → motive (part ++ c :: s) (part :: s.splitOnP p))
    (s : Text) : motive s (s.splitOnP p) := by
  -- the induction is on the text behind what was read of the part
  suffices hpart : ∀ read : Text, (∀ c ∈ read, p c = false) →
      motive (read ++ s) ((read ++ s).splitOnP p) from
    hpart [] fun c hc => absurd hc List.not_mem_nil
  induction s with
  | nil =>
    intro read hread
    rw [List.append_nil, List.splitOnP_eq_singleton hread]
    exact single read hread
  | cons c s ih =>
    intro read hread
    cases hc : p c with
    | true =>
      rw [List.splitOnP_append_cons read s hc, List.splitOnP_eq_singleton hread]
      exact cons read c s hread hc (ih [] fun d hd => absurd hd List.not_mem_nil)
    | false =>
      have hmore : ∀ d ∈ read ++ [c], p d = false :=
        List.forall_mem_append.mpr ⟨hread, List.forall_mem_singleton.mpr hc⟩
      simpa using ih (read ++ [c]) hmore

/-- What is found on either side of a separator on its own is found part by part. -/
theorem eq_flatMap_splitOnP {α : Type} {p : Char → Bool} {f : Text → List α}
    (h : ∀ a c b, p c = true → f (a ++ c :: b) = f a ++ f b) (s : Text) :
    f s = (s.splitOnP p).flatMap f := by
  induction s using splitOnP_induction with
  | single part => rw [List.flatMap_singleton]
  | cons part c s _ hc ih => rw [h part c s hc, List.flatMap_cons, ih]

/-- The parts of a text are the text without its separators. -/
theorem flatten_splitOnP (p : Char → Bool) (s : Text) :
    (s.splitOnP p).flatten = s.filter fun c => !p c := by
  induction s using splitOnP_induction with
  | single part hpart =>
    rw [List.flatten_singleton]
    exact (List.filter_eq_self.mpr fun d hd => by rw [hpart d hd]; rfl).symm
  | cons part c s hpart hc ih =>
    have hself : part.filter (fun d => !p d) = part :=
      List.filter_eq_self.mpr fun d hd => by rw [hpart d hd]; rfl
    rw [List.flatten_cons, ih, List.filter_append, List.filter_cons_of_neg (by simp [hc]), hself]

end Text

/-! ## Terms across a separator -/

/-- A character that is part of no word becomes a blank. -/
theorem isBlankChar_spaced {c : Char} (hc : isWordChar c = false) :
    isBlankChar (if isWordChar c || isBlankChar c then c else ' ') = true := by
  cases hblank : isBlankChar c with
  | true => simpa using hblank
  | false =>
    rw [hc]
    rfl

/-- What stands on either side of a character that is part of no word has its own terms. -/
theorem terms_append_cons {c : Char} (hc : isWordChar c = false) (a b : Text) :
    (a ++ c :: b).terms = a.terms ++ b.terms := by
  have hblank := isBlankChar_spaced hc
  unfold Text.terms
  have hspaced : spacePunctuation (a ++ c :: b) =
      spacePunctuation a ++ (if isWordChar c || isBlankChar c then c else ' ') ::
        spacePunctuation b := by
    rw [spacePunctuation, List.map_append, List.map_cons]
    rfl
  rw [hspaced, Text.lower_append_cons (isCaseBoundary_of_isBlankChar hblank),
    Text.words_append_cons hblank, List.filter_append]

/-- The terms of a text are those of its words, in their order. -/
theorem terms_eq_flatMap_wordRuns (s : Text) :
    s.terms = (Ranking.wordRuns s).flatMap Text.terms := by
  have hparts : s.terms = (s.splitOnP fun c => !isWordChar c).flatMap Text.terms :=
    Text.eq_flatMap_splitOnP (fun a c b hc => terms_append_cons (by simpa using hc) a b) s
  have hempty : Text.terms [] = [] := rfl
  rw [hparts, Ranking.wordRuns]
  generalize (s.splitOnP fun c => !isWordChar c) = parts
  induction parts with
  | nil => rfl
  | cons part parts ih =>
    cases part with
    | nil => simp [hempty, ih]
    | cons c part => simp [ih]

/-- Whatever separates two texts, if it is no word character, the terms of the whole are those of
the first followed by those of the second. So the terms that a chunk is made with are those of its
lines, one line after the other, and queries with the same words have the same terms, whatever stands between the
words. -/
theorem terms_of_parts :
    (∀ (a b : Text) (c : Char), isWordChar c = false →
      (a ++ c :: b).terms = a.terms ++ b.terms) ∧
    (∀ path kind name content startLine endLine,
      (Chunk.make path kind name content startLine endLine).terms =
        content.lines.flatMap Text.terms) ∧
    ∀ (index : TermIndex) (s t : Text), Ranking.wordRuns s = Ranking.wordRuns t →
      (Ranking.Query.ofText index s).terms = (Ranking.Query.ofText index t).terms := by
  refine ⟨fun a b c hc => terms_append_cons hc a b, ?_, ?_⟩
  · intro path kind name content startLine endLine
    have hlines (a : Text) (d : Char) (b : Text) (hd : (d == '\n') = true) :
        (a ++ d :: b).terms = a.terms ++ b.terms := by
      rw [beq_iff_eq] at hd
      subst hd
      exact terms_append_cons (by decide) a b
    show content.terms = _
    rw [Text.lines, List.splitOn_eq_splitOnP]
    exact Text.eq_flatMap_splitOnP hlines content
  · intro index s t h
    show s.terms = t.terms
    rw [terms_eq_flatMap_wordRuns s, h, ← terms_eq_flatMap_wordRuns t]

/-- A full stop is passed over by a sigma that looks for its neighbours, but not in a text whose
terms are read: the sigma in front of it is a final one. -/
theorem terms_of_parts_of_final_sigma :
    let a : Text := "ΟΔΟΣ".toList
    let b : Text := "ΑΘΗΝΑ".toList
    isWordChar '.' = false ∧ isCaseIgnored '.' = true ∧
      (a ++ '.' :: b).terms = a.terms ++ b.terms ∧
      a.terms = ["οδος".toList] ∧ (a ++ '.' :: b).lower = "οδοσ.αθηνα".toList ∧
      Ranking.wordRuns "user.profile".toList = Ranking.wordRuns "user / profile".toList ∧
      (Ranking.Query.ofText {} "user.profile".toList).terms =
        (Ranking.Query.ofText {} "user / profile".toList).terms := by
  intro a b
  have hruns : Ranking.wordRuns "user.profile".toList = Ranking.wordRuns "user / profile".toList := by
    decide
  exact ⟨by decide, by decide +kernel, terms_of_parts.1 a b '.' (by decide), by decide +kernel,
    by decide +kernel, hruns, terms_of_parts.2.2 {} _ _ hruns⟩

end SourceIndex
