import SourceIndex.Text.Word
import SourceIndex.Proofs.Case
import SourceIndex.Proofs.Text

/-!
# Words in lower case

The lower-case forms of word characters are word characters, with one exception: the capital I with
a dot above becomes an `i` and a combining dot, and the dot is no word character. So a lowered word
consists of word characters exactly if it has no such I, and it is longer than the word by one dot
for each of them.
-/

namespace SourceIndex

/-! ## Lower-case forms in the ranges of word characters -/

/-- A range of word characters runs upwards and has no code point in it that is no character. -/
theorem bounds_of_mem_wordRanges : ∀ range ∈ wordRanges, range.1 ≤ range.2 ∧
    (range.2 < 0xD800 ∨ 0xDFFF < range.1 ∧ range.2 < 0x110000) := by
  decide +kernel

/-- What lies in the first range that does not end in front of a code point, and not in front of the
code point either, lies in one of the ranges. -/
theorem inRanges_of_find? {ranges : List (Nat × Nat)}
    (hranges : ∀ range ∈ ranges, range.1 ≤ range.2) {range : Nat × Nat} {m n : Nat}
    (hfind : ranges.find? (fun range => Nat.ble m range.2) = some range) (hm : range.1 ≤ m)
    (hmn : m ≤ n) (hn : n ≤ range.2) : inRanges ranges n = true := by
  induction ranges with
  | nil => cases hfind
  | cons first rest ih =>
    obtain ⟨hfirst, hrest⟩ := List.forall_mem_cons.mp hranges
    rw [List.find?_cons] at hfind
    cases hend : Nat.ble m first.2 with
    | true =>
      rw [hend] at hfind
      obtain rfl : first = range := Option.some.inj hfind
      rw [inRanges, if_neg (by omega), if_pos hn]
    | false =>
      rw [hend] at hfind
      have hbefore : first.2 < m := by
        rw [← Nat.not_le, ← Nat.ble_eq, hend]
        exact Bool.false_ne_true
      rw [inRanges, if_neg (by omega), if_neg (by omega)]
      exact ih hrest hfind

namespace CaseRun

/-- All lower-case forms of a run lie in one range of word characters. -/
def formsAreWordChars (r : CaseRun) : Bool :=
  (wordRanges.find? fun range => Nat.ble r.lower range.2).any fun range =>
    Nat.ble range.1 r.lower && Nat.ble (r.lower + (r.last - r.first)) range.2

/-- A run lies between the ranges of word characters. -/
def isBetweenWordChars (r : CaseRun) : Bool :=
  wordRanges.all fun range => Nat.blt range.2 r.first || Nat.blt r.last range.1

/-- Runs of word characters have forms that are word characters. -/
theorem all_keepWordChars :
    (caseRuns.all fun r => r.formsAreWordChars || r.isBetweenWordChars) = true := by
  -- the first range behind a form decides, so the ranges behind that are not looked at
  decide +kernel

variable {r : CaseRun} {n : Nat}

/-- A form of such a run is a word character. -/
theorem isWordChar_form (h : r.formsAreWordChars = true) (hn : r.Holds n) :
    isWordChar (Char.ofNat (r.lower + (n - r.first))) = true := by
  obtain ⟨hfirst, hlast, -⟩ := hn
  obtain ⟨range, hfind, hrange⟩ := (Option.any_eq_true _ _).mp h
  rw [Bool.and_eq_true, Nat.ble_eq, Nat.ble_eq] at hrange
  obtain ⟨hlow, hhigh⟩ := hrange
  have hvalid : (r.lower + (n - r.first)).isValidChar := by
    have hbounds := (bounds_of_mem_wordRanges range (List.mem_of_find?_eq_some hfind)).2
    unfold Nat.isValidChar
    omega
  rw [isWordChar, toNat_ofNat_of_isValidChar hvalid]
  exact inRanges_of_find? (fun range hr => (bounds_of_mem_wordRanges range hr).1) hfind hlow
    (Nat.le_add_right _ _) (by omega)

/-- A code point of a run between the ranges is no word character. -/
theorem inRanges_eq_false (h : r.isBetweenWordChars = true) (hn : r.Holds n) :
    inRanges wordRanges n = false := by
  obtain ⟨hfirst, hlast, -⟩ := hn
  by_contra hword
  rw [Bool.not_eq_false] at hword
  obtain ⟨range, hmem, hlow, hhigh⟩ := exists_of_inRanges hword
  have hapart := List.all_eq_true.mp h range hmem
  rw [Bool.or_eq_true, Nat.blt_eq, Nat.blt_eq] at hapart
  omega

end CaseRun

/-! ## Characters -/

/-- The form of a word character in the table is a word character. -/
theorem isWordChar_lowerChar {c : Char} (h : isWordChar c = true) :
    isWordChar (lowerChar c) = true := by
  unfold lowerChar
  rcases lowerIn_cases caseRuns c.toNat with hsame | ⟨r, hr, hholds, hform⟩
  · rwa [hsame, Char.ofNat_toNat]
  · rw [hform]
    have hkeeps := List.all_eq_true.mp CaseRun.all_keepWordChars r hr
    rw [Bool.or_eq_true] at hkeeps
    rcases hkeeps with hforms | hbetween
    · exact CaseRun.isWordChar_form hforms hholds
    · have hno : isWordChar c = false := CaseRun.inRanges_eq_false hbetween hholds
      rw [hno] at h
      cases h

/-- A word character has word characters in its form, apart from a dot. -/
theorem LowersTo.isWordChar_or {c d : Char} (h : LowersTo c d) (hc : isWordChar c = true) :
    isWordChar d = true ∨ c = 'İ' ∧ d = '\u0307' := by
  cases h with
  | dot => exact .inr ⟨rfl, rfl⟩
  | table => exact .inl (isWordChar_lowerChar hc)
  | _ => exact .inl (by decide)

/-! ## Words -/

namespace Text

/-- A text has nothing but word characters. -/
def IsWord (w : Text) : Prop :=
  ∀ c ∈ w, isWordChar c = true

instance (w : Text) : Decidable w.IsWord :=
  List.decidableBAll _ w

/-- A lowered word has word characters and dots. -/
theorem IsWord.of_mem_lower {w : Text} (h : w.IsWord) {c : Char} (hc : c ∈ lower w) :
    isWordChar c = true ∨ c = '\u0307' := by
  obtain ⟨d, hd, hlower⟩ := exists_of_mem_lowerFrom hc
  exact (hlower.isWordChar_or (h d hd)).imp_right And.right

/-- A dot stands where an I with a dot stood. -/
theorem dot_mem_lowerFrom {w : Text} (hw : 'İ' ∈ w) (afterCased : Bool) :
    '\u0307' ∈ lowerFrom afterCased w := by
  induction w generalizing afterCased with
  | nil => cases hw
  | cons c rest ih =>
    unfold lowerFrom
    rw [List.mem_append]
    rcases List.mem_cons.mp hw with rfl | hrest
    · rw [if_pos (beq_self_eq_true 'İ')]
      exact .inl (List.mem_cons_of_mem 'i' List.mem_cons_self)
    · exact .inr (ih hrest _)

/-- A lowered word is a word exactly if the word has no I with a dot. -/
theorem IsWord.isWord_lower_iff {w : Text} (h : w.IsWord) : (lower w).IsWord ↔ 'İ' ∉ w := by
  constructor
  · intro hlower hmem
    exact absurd (hlower _ (dot_mem_lowerFrom hmem false)) (by decide +kernel)
  · intro hmem c hc
    obtain ⟨d, hd, hlower⟩ := exists_of_mem_lowerFrom hc
    refine (hlower.isWordChar_or (h d hd)).resolve_right ?_
    rintro ⟨rfl, -⟩
    exact hmem hd

/-- Lowering adds one character for each I with a dot. -/
theorem length_lowerFrom (w : Text) (afterCased : Bool) :
    (lowerFrom afterCased w).length = w.length + w.count 'İ' := by
  induction w generalizing afterCased with
  | nil => rfl
  | cons c rest ih =>
    unfold lowerFrom
    rw [List.length_append, ih, List.length_cons]
    by_cases hdotted : c = 'İ'
    · subst hdotted
      rw [List.count_cons_self, if_pos (beq_self_eq_true 'İ')]
      simp only [List.length_cons, List.length_nil]
      omega
    · rw [List.count_cons_of_ne hdotted, if_neg (mt beq_iff_eq.mp hdotted)]
      split <;> simp only [List.length_cons, List.length_nil] <;> omega

end Text

end SourceIndex
