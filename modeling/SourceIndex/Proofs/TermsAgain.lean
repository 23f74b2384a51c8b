import SourceIndex.Proofs.Terms
import SourceIndex.Proofs.WordCase
import Mathlib.Data.List.Basic
import Mathlib.Data.List.Flatten

/-!
# Terms read again

The terms of a text are its lowered words, without those that are no terms. A lowered word is a
word, and its own only term, unless the word has a capital I with a dot above: this I leaves a
combining dot, which is part of no word, so such a term is cut when it is read again. A text of
terms has the same terms exactly if all of them are words (`flatMap_terms_eq_self_iff`).
-/

namespace SourceIndex

open Ranking (wordRuns)

/-! ## Terms of words -/

/-- The words of a text have all of its word characters. -/
theorem flatten_wordRuns (s : Text) : (wordRuns s).flatten = s.filter isWordChar := by
  rw [wordRuns, List.flatten_filter_not_isEmpty, Text.flatten_splitOnP]
  simp only [Bool.not_not]

/-- The words of a text are words. -/
theorem isWord_of_mem_wordRuns {s w : Text} (h : w ∈ wordRuns s) : w.IsWord := by
  intro c hc
  have hmem : c ∈ (wordRuns s).flatten := List.mem_flatten_of_mem h hc
  rw [flatten_wordRuns] at hmem
  exact (List.mem_filter.mp hmem).2

/-- A term has more than two characters and is no stop word. -/
theorem isTerm_iff {t : Text} : isTerm t = true ↔ 2 < t.length ∧ t ∉ stopWords := by
  rw [isTerm, Bool.and_eq_true, decide_eq_true_eq, Bool.not_eq_true', ← Bool.not_eq_true,
    List.contains_iff_mem]

/-- The only term that a word may have is its lower-case form. -/
theorem Text.IsWord.terms_eq {w : Text} (h : w.IsWord) : w.terms = [w.lower].filter isTerm := by
  have hspaced : spacePunctuation w = w := by
    refine (List.map_congr_left fun c hc => ?_).trans (List.map_id w)
    rw [h c hc]
    rfl
  have hblank : ∀ c ∈ w.lower, isBlankChar c = false := by
    intro c hc
    rcases h.of_mem_lower hc with hword | rfl
    · exact isBlankChar_of_isWordChar hword
    · decide
  rw [Text.terms, hspaced, Text.words, List.splitOnP_eq_singleton hblank, List.filter_filter]
  -- the empty text is no term, so it need not be left out
  refine List.filter_congr fun t _ => ?_
  cases t <;> simp [isTerm]

/-- The terms of a text are its lowered words, without those that are no terms. -/
theorem terms_eq_filter (s : Text) : s.terms = ((wordRuns s).map Text.lower).filter isTerm := by
  have hwords : (wordRuns s).flatMap Text.terms =
      (wordRuns s).flatMap fun w => [w.lower].filter isTerm :=
    List.flatMap_congr fun w hw => (isWord_of_mem_wordRuns hw).terms_eq
  rw [terms_eq_flatMap_wordRuns, hwords, List.map_eq_flatMap, List.filter_flatMap]

/-- A term is a lowered word. -/
theorem exists_of_mem_terms {s t : Text} (h : t ∈ s.terms) :
    ∃ w ∈ wordRuns s, w.IsWord ∧ w.lower = t ∧ isTerm t = true := by
  rw [terms_eq_filter] at h
  obtain ⟨hmap, hterm⟩ := List.mem_filter.mp h
  obtain ⟨w, hw, hlower⟩ := List.mem_map.mp hmap
  exact ⟨w, hw, isWord_of_mem_wordRuns hw, hlower, hterm⟩

/-- A term is kept by lowering. -/
theorem isLow_of_mem_terms {s t : Text} (h : t ∈ s.terms) : ∀ c ∈ t, IsLow c := by
  obtain ⟨w, -, -, rfl, -⟩ := exists_of_mem_terms h
  exact fun c hc => Text.isLow_of_mem_lowerFrom hc

/-! ## Lowered texts -/

/-- The terms of a lowered text are some of its words. -/
theorem flatten_terms_sublist {t : Text} (h : ∀ c ∈ t, IsLow c) :
    t.terms.flatten.Sublist (t.filter isWordChar) := by
  have hsame : (wordRuns t).map Text.lower = wordRuns t := by
    refine (List.map_congr_left fun w hw => ?_).trans (List.map_id _)
    refine Text.lowerFrom_eq_self (fun c hc => h c ?_) false
    have hmem : c ∈ (wordRuns t).flatten := List.mem_flatten_of_mem hw hc
    rw [flatten_wordRuns] at hmem
    exact (List.mem_filter.mp hmem).1
  rw [terms_eq_filter, hsame, ← flatten_wordRuns]
  exact List.filter_sublist.flatten

/-- A lowered word that is a term is its only term. -/
theorem Text.IsWord.terms_eq_singleton {t : Text} (h : t.IsWord) (hlow : ∀ c ∈ t, IsLow c)
    (hterm : isTerm t = true) : t.terms = [t] := by
  have hsame : t.lower = t := Text.lowerFrom_eq_self hlow false
  rw [h.terms_eq, hsame, List.filter_cons_of_pos hterm, List.filter_nil]

/-- Texts that are put together with a space between neighbours have the terms of all of them. -/
theorem terms_intercalate (ts : List Text) :
    Text.terms (List.intercalate [' '] ts) = ts.flatMap Text.terms := by
  induction ts with
  | nil => rfl
  | cons t more ih =>
    cases more with
    | nil => rw [List.intercalate_singleton, List.flatMap_singleton]
    | cons u more =>
      rw [List.intercalate_cons_cons, List.append_assoc, List.singleton_append,
        terms_append_cons (by decide) t _, ih]
      rfl

/-- Lowered texts that are terms are their own terms exactly if they are words. -/
theorem flatMap_terms_eq_self_iff {ts : List Text} (hterm : ∀ t ∈ ts, isTerm t = true)
    (hlow : ∀ t ∈ ts, ∀ c ∈ t, IsLow c) :
    ts.flatMap Text.terms = ts ↔ ∀ t ∈ ts, t.IsWord := by
  constructor
  · intro hsame
    have hsublist : (ts.flatMap Text.terms).flatten.Sublist (ts.flatten.filter isWordChar) := by
      clear hsame hterm
      induction ts with
      | nil => exact List.Sublist.refl _
      | cons t ts ih =>
        obtain ⟨ht, hts⟩ := List.forall_mem_cons.mp hlow
        rw [List.flatMap_cons, List.flatten_append, List.flatten_cons, List.filter_append]
        exact (flatten_terms_sublist ht).append (ih hts)
    rw [hsame] at hsublist
    -- no character is missing, so all of them are word characters
    have hlength : (ts.flatten.filter isWordChar).length = ts.flatten.length :=
      Nat.le_antisymm (List.length_filter_le _ _) hsublist.length_le
    have hall := List.length_filter_eq_length_iff.mp hlength
    exact fun t ht c hc => hall c (List.mem_flatten_of_mem ht hc)
  · intro hwords
    induction ts with
    | nil => rfl
    | cons t ts ih =>
      obtain ⟨ht, hts⟩ := List.forall_mem_cons.mp hterm
      obtain ⟨ht', hts'⟩ := List.forall_mem_cons.mp hlow
      obtain ⟨hword, hmore⟩ := List.forall_mem_cons.mp hwords
      rw [List.flatMap_cons, hword.terms_eq_singleton ht' ht, ih hts hts' hmore]
      rfl

/-! ## Terms with a dot -/

/-- Stop words are words. -/
theorem isWord_of_mem_stopWords : ∀ w ∈ stopWords, w.IsWord := by
  decide +kernel

/-- A word that has an I with a dot and something else becomes a term that is no word. -/
theorem isTerm_lower_of_dotted {w : Text} (hw : w.IsWord) (hdotted : 'İ' ∈ w) (hne : w ≠ ['İ']) :
    isTerm w.lower = true := by
  have hword : ¬ w.lower.IsWord := fun h => hw.isWord_lower_iff.mp h hdotted
  have hlength : 2 ≤ w.length := by
    match w with
    | [] => cases hdotted
    | [c] => exact absurd (by rw [List.mem_singleton.mp hdotted]) hne
    | _ :: _ :: rest => exact Nat.le_add_left 2 rest.length
  refine isTerm_iff.mpr ⟨?_, fun hstop => hword (isWord_of_mem_stopWords _ hstop)⟩
  have hcount := List.count_pos_iff.mpr hdotted
  have hlower := Text.length_lowerFrom w false
  rw [Text.lower]
  omega

/-- The terms of a text are words exactly if none of its words has an I with a dot beside other
characters. -/
theorem isWord_terms_iff (s : Text) :
    (∀ t ∈ s.terms, t.IsWord) ↔ ∀ w ∈ wordRuns s, 'İ' ∈ w → w = ['İ'] := by
  constructor
  · intro h w hw hdotted
    by_contra hne
    have hword := isWord_of_mem_wordRuns hw
    have hterm : w.lower ∈ s.terms := by
      rw [terms_eq_filter]
      exact List.mem_filter.mpr ⟨List.mem_map_of_mem hw, isTerm_lower_of_dotted hword hdotted hne⟩
    exact hword.isWord_lower_iff.mp (h _ hterm) hdotted
  · intro h t ht
    obtain ⟨w, hw, hword, rfl, hterm⟩ := exists_of_mem_terms ht
    refine hword.isWord_lower_iff.mpr fun hdotted => ?_
    -- the I on its own becomes two characters, which are too few for a term
    rw [h w hw hdotted] at hterm
    exact absurd hterm (by decide)

/-- What the terms of a text are. Each has more than two characters, is no stop word and consists of
word characters, apart from the combining dots that a capital I with a dot above leaves. A term is
its own only term, and the terms with spaces between them have the same terms, exactly if they have
no such dot; and that is so exactly if no word of the text has this I beside other characters. -/
theorem terms_read_again (s : Text) :
    (∀ t ∈ s.terms, 2 < t.length ∧ t ∉ stopWords ∧
      (∀ c ∈ t, isWordChar c = true ∨ c = '\u0307') ∧ (t.terms = [t] ↔ t.IsWord)) ∧
    (Text.terms (List.intercalate [' '] s.terms) = s.terms ↔ ∀ t ∈ s.terms, t.IsWord) ∧
    ((∀ t ∈ s.terms, t.IsWord) ↔ ∀ w ∈ wordRuns s, 'İ' ∈ w → w = ['İ']) := by
  have hterm : ∀ t ∈ s.terms, isTerm t = true := by
    intro t ht
    obtain ⟨-, -, -, -, hterm⟩ := exists_of_mem_terms ht
    exact hterm
  refine ⟨?_, ?_, isWord_terms_iff s⟩
  · intro t ht
    obtain ⟨hlength, hstop⟩ := isTerm_iff.mp (hterm t ht)
    refine ⟨hlength, hstop, ?_, ?_⟩
    · obtain ⟨w, -, hword, rfl, -⟩ := exists_of_mem_terms ht
      exact fun c hc => hword.of_mem_lower hc
    · have hself := flatMap_terms_eq_self_iff (List.forall_mem_singleton.mpr (hterm t ht))
        (List.forall_mem_singleton.mpr (isLow_of_mem_terms ht))
      rwa [List.flatMap_singleton, List.forall_mem_singleton] at hself
  · rw [terms_intercalate]
    exact flatMap_terms_eq_self_iff hterm fun t ht => isLow_of_mem_terms ht

/-- A text with a final sigma, a Kelvin sign and a capital I with a dot on its own: its first term
is read again as it is. -/
theorem terms_read_again_of_kelvin :
    let s : Text := "ΛΟΓΟΣ 300\u212a-İ".toList
    s.terms = ["λογος".toList, "300k".toList] ∧ "λογος".toList ∈ s.terms ∧
      2 < "λογος".toList.length ∧ "λογος".toList ∉ stopWords ∧
      (Text.terms "λογος".toList = ["λογος".toList] ↔ Text.IsWord "λογος".toList) := by
  intro s
  have hterms : s.terms = ["λογος".toList, "300k".toList] := by decide +kernel
  have hmem : "λογος".toList ∈ s.terms := by
    rw [hterms]
    exact List.mem_cons_self
  obtain ⟨hlength, hstop, -, hself⟩ := (terms_read_again s).1 _ hmem
  exact ⟨hterms, hmem, hlength, hstop, hself⟩

/-- The combining dot stays in the term and cuts it when it is read again. -/
theorem terms_of_dotted_capital :
    let s : Text := "İstanbul".toList
    let t : Text := 'i' :: '\u0307' :: "stanbul".toList
    s.terms = [t] ∧ ¬ t.IsWord ∧
      Text.terms (List.intercalate [' '] s.terms) = ["stanbul".toList] ∧
      ¬ ((∀ t ∈ s.terms, t.IsWord) ∧ Text.terms (List.intercalate [' '] s.terms) = s.terms) := by
  decide +kernel

end SourceIndex
