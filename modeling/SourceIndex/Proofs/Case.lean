import SourceIndex.Text.Case

/-!
# Lowered texts stay as they are

The lower-case forms in the table of cases are no characters that the table lowers, and neither are the
two forms of the exceptions. So lowering a text that was lowered before changes nothing:
`Text.lower_lower`.
-/

namespace SourceIndex

/-! ## The table of cases -/

namespace CaseRun

/-- A code point is in a run. -/
def Holds (r : CaseRun) (n : Nat) : Prop :=
  r.first ≤ n ∧ n ≤ r.last ∧ (n - r.first) % r.step = 0

/-- The lower-case forms of a run are not in another one: they lie in front of it or behind it, or
between its members. -/
def apart (r s : CaseRun) : Bool :=
  Nat.blt s.last r.lower || Nat.blt (r.lower + (r.last - r.first)) s.first ||
    ((Nat.beq r.step 2 || Nat.beq r.first r.last) && Nat.beq s.step 2 &&
      Nat.beq ((r.lower + s.first) % 2) 1)

/-- What is apart from the lower-case forms of a run does not hold them. -/
theorem not_holds_of_apart {r s : CaseRun} (h : r.apart s = true) {n : Nat} (hn : r.Holds n) :
    ¬s.Holds (r.lower + (n - r.first)) := by
  obtain ⟨hfirst, hlast, hstep⟩ := hn
  rintro ⟨hfirst', hlast', hstep'⟩
  simp only [apart, Bool.or_eq_true, Bool.and_eq_true, Nat.blt_eq, Nat.beq_eq] at h
  rcases h with (h | h) | ⟨⟨htwo | hone, htwo'⟩, hparity⟩
  · omega
  · omega
  · rw [htwo] at hstep
    rw [htwo'] at hstep'
    omega
  · rw [htwo'] at hstep'
    omega

end CaseRun

/-- The two characters that are lowered apart from the table, as runs of their own. -/
def exceptions : List CaseRun :=
  [⟨'İ'.toNat, 'İ'.toNat, 1, 'İ'.toNat⟩, ⟨'Σ'.toNat, 'Σ'.toNat, 1, 'Σ'.toNat⟩]

/-- No lower-case form in the table is lowered, by the table or apart from it. -/
theorem all_apart :
    (caseRuns.all fun r => (exceptions ++ caseRuns).all fun s => r.apart s) = true := by
  -- runs are compared, not the characters in them, which are far more
  decide +kernel

/-- A code point keeps its form or is in a run and takes its form there. -/
theorem lowerIn_cases (runs : List CaseRun) (n : Nat) :
    lowerIn runs n = n ∨
      ∃ r ∈ runs, r.Holds n ∧ lowerIn runs n = r.lower + (n - r.first) := by
  fun_induction lowerIn runs n with
  | case1 => exact .inl rfl
  | case2 => exact .inl rfl
  | case3 r rest n hge hin =>
    rw [Bool.and_eq_true, decide_eq_true_eq, beq_iff_eq] at hin
    exact .inr ⟨r, List.mem_cons_self, ⟨Nat.le_of_not_lt hge, hin.1, hin.2⟩, rfl⟩
  | case4 r rest n hge hout ih =>
    rcases ih with hsame | ⟨s, hs, hholds, hform⟩
    · exact .inl hsame
    · exact .inr ⟨s, List.mem_cons_of_mem _ hs, hholds, hform⟩

/-- A code point in no run keeps its form. -/
theorem lowerIn_eq_self {runs : List CaseRun} {n : Nat} (h : ∀ r ∈ runs, ¬r.Holds n) :
    lowerIn runs n = n := by
  rcases lowerIn_cases runs n with hsame | ⟨r, hr, hholds, -⟩
  · exact hsame
  · exact absurd hholds (h r hr)

/-! ## Characters -/

/-- Lowering keeps a character as it is: the table does, and it is neither the capital I with a dot
above nor the capital sigma, which are not lowered by the table alone. -/
structure IsLow (c : Char) : Prop where
  ne_dotted : c ≠ 'İ'
  ne_sigma : c ≠ 'Σ'
  lowerChar_eq : lowerChar c = c

/-- A code point of a character is that of the character it makes. -/
theorem toNat_ofNat_of_isValidChar {m : Nat} (h : m.isValidChar) : (Char.ofNat m).toNat = m := by
  unfold Char.ofNat
  rw [dif_pos h]
  rfl

/-- A character whose code point is in no run and is no exception is kept. -/
theorem isLow_of_forall {c : Char} (h : ∀ r ∈ exceptions ++ caseRuns, ¬r.Holds c.toNat) :
    IsLow c := by
  have hrefl (n : Nat) : (⟨n, n, 1, n⟩ : CaseRun).Holds n :=
    ⟨Nat.le_refl n, Nat.le_refl n, Nat.mod_one _⟩
  refine ⟨?_, ?_, ?_⟩
  · rintro rfl
    exact h _ (List.mem_append_left _ List.mem_cons_self) (hrefl _)
  · rintro rfl
    exact h _ (List.mem_append_left _ (List.mem_cons_of_mem _ List.mem_cons_self)) (hrefl _)
  · unfold lowerChar
    rw [lowerIn_eq_self fun r hr => h r (List.mem_append_right _ hr), Char.ofNat_toNat]

/-- The form of a character in the table is kept by lowering. -/
theorem isLow_lowerChar {c : Char} (hdotted : c ≠ 'İ') (hsigma : c ≠ 'Σ') :
    IsLow (lowerChar c) := by
  unfold lowerChar
  rcases lowerIn_cases caseRuns c.toNat with hsame | ⟨r, hr, hholds, hform⟩
  · rw [hsame, Char.ofNat_toNat]
    refine ⟨hdotted, hsigma, ?_⟩
    unfold lowerChar
    rw [hsame, Char.ofNat_toNat]
  · rw [hform]
    have hapart := List.all_eq_true.mp (List.all_eq_true.mp all_apart r hr)
    have hnone : ∀ s ∈ exceptions ++ caseRuns, ¬s.Holds (r.lower + (c.toNat - r.first)) :=
      fun s hs => CaseRun.not_holds_of_apart (hapart s hs) hholds
    generalize r.lower + (c.toNat - r.first) = m at hnone
    by_cases hvalid : m.isValidChar
    · apply isLow_of_forall
      rwa [toNat_ofNat_of_isValidChar hvalid]
    -- a code point of no character stands for the null character
    · have hnull : Char.ofNat m = Char.ofNat 0 := by
        unfold Char.ofNat
        rw [dif_neg hvalid]
        rfl
      rw [hnull]
      exact ⟨by decide, by decide, by decide⟩

/-- A character stands in the lower-case form of another one. The capital I with a dot above becomes
an `i` and a combining dot, a capital sigma is final or not, and every other character has its form
in the table. -/
inductive LowersTo : Char → Char → Prop where
  | letter : LowersTo 'İ' 'i'
  | dot : LowersTo 'İ' '\u0307'
  | sigma : LowersTo 'Σ' 'σ'
  | finalSigma : LowersTo 'Σ' 'ς'
  | table {c : Char} (hdotted : c ≠ 'İ') (hsigma : c ≠ 'Σ') : LowersTo c (lowerChar c)

namespace Text

/-- Every character of a lowered text stands in the form of a character of the text. -/
theorem exists_of_mem_lowerFrom {afterCased : Bool} {s : Text} {c : Char}
    (h : c ∈ lowerFrom afterCased s) : ∃ d ∈ s, LowersTo d c := by
  induction s generalizing afterCased with
  | nil => cases h
  | cons d rest ih =>
    unfold lowerFrom at h
    rcases List.mem_append.mp h with h | h
    · refine ⟨d, List.mem_cons_self, ?_⟩
      by_cases hdotted : d = 'İ'
      · subst hdotted
        rcases List.mem_cons.mp h with rfl | h
        · exact .letter
        · rw [List.mem_singleton.mp h]
          exact .dot
      rw [if_neg (mt beq_iff_eq.mp hdotted)] at h
      by_cases hsigma : d = 'Σ'
      · subst hsigma
        rw [if_pos (beq_self_eq_true 'Σ'), List.mem_singleton] at h
        rw [h]
        split
        · exact .finalSigma
        · exact .sigma
      · rw [if_neg (mt beq_iff_eq.mp hsigma), List.mem_singleton] at h
        rw [h]
        exact .table hdotted hsigma
    · obtain ⟨e, he, hlower⟩ := ih h
      exact ⟨e, List.mem_cons_of_mem d he, hlower⟩

/-- Every character of a lowered text is kept by lowering. -/
theorem isLow_of_mem_lowerFrom {afterCased : Bool} {s : Text} {c : Char}
    (h : c ∈ lowerFrom afterCased s) : IsLow c := by
  obtain ⟨d, -, hlower⟩ := exists_of_mem_lowerFrom h
  cases hlower with
  | table hdotted hsigma => exact isLow_lowerChar hdotted hsigma
  | _ => exact ⟨by decide, by decide, by decide⟩

/-- Lowering keeps a text whose characters it keeps. -/
theorem lowerFrom_eq_self {s : Text} (h : ∀ c ∈ s, IsLow c) (afterCased : Bool) :
    lowerFrom afterCased s = s := by
  induction s generalizing afterCased with
  | nil => rfl
  | cons c rest ih =>
    obtain ⟨hdotted, hsigma, hlow⟩ := h c List.mem_cons_self
    unfold lowerFrom
    rw [ih fun d hd => h d (List.mem_cons_of_mem _ hd)]
    simp [hdotted, hsigma, hlow]

/-- Lowering a text twice is lowering it once. -/
theorem lower_lower (s : Text) : lower (lower s) = lower s := by
  apply lowerFrom_eq_self
  intro c hc
  exact isLow_of_mem_lowerFrom hc

end Text

end SourceIndex
