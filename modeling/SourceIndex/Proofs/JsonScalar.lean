import SourceIndex.Json.Reader
import SourceIndex.Json.Writer
import SourceIndex.Proofs.Text
import Mathlib.Data.List.Basic

/-!
# Integers and words are read as they were written

An integer in an array or an object, or at the end of a text, is read as it was written: its digits are
taken together, only zero has a zero in front, and what follows starts neither a fraction nor an
exponent. The words for the other scalar values start with letters that no integer has.
-/

namespace SourceIndex

namespace Json

/-- The text ends, or goes on with what may follow a value in an array or an object. -/
def Closes (rest : Text) : Prop :=
  ∀ c ∈ rest.head?, c ∈ [',', ']', '\x7d']

theorem closes_nil : Closes [] := by
  simp [Closes]

theorem closes_cons {c : Char} (h : c ∈ [',', ']', '\x7d']) (rest : Text) : Closes (c :: rest) := by
  simpa [Closes] using h

/-! ## Numbers -/

/-- What closes a value is no digit, and starts neither a fraction nor an exponent. -/
theorem Closes.not_number {rest : Text} (h : Closes rest) :
    rest.takeWhile Char.isDigit = [] ∧ fraction? rest = none ∧ exponent? rest = none := by
  cases rest with
  | nil => exact ⟨rfl, rfl, rfl⟩
  | cons c rest =>
    have hc := h c rfl
    simp only [List.mem_cons, List.not_mem_nil, or_false] at hc
    rcases hc with rfl | rfl | rfl <;> exact ⟨rfl, rfl, rfl⟩

/-- The digits of a number are taken together. -/
theorem takeDigits_ofNat {rest : Text} (h : Closes rest) (n : Nat) :
    takeDigits (Text.ofNat n ++ rest) = (Text.ofNat n, rest) := by
  have hdigits : ∀ c ∈ Text.ofNat n, c.isDigit = true := fun _ => Text.isDigit_of_mem_ofNat
  have hrest := h.not_number.1
  have hdrop : rest.dropWhile Char.isDigit = rest := by
    have hwhole := List.takeWhile_append_dropWhile (p := Char.isDigit) (l := rest)
    rwa [hrest, List.nil_append] at hwhole
  rw [takeDigits, List.span_eq_takeWhile_dropWhile, List.takeWhile_append_of_pos hdigits,
    List.dropWhile_append_of_pos hdigits, hrest, hdrop, List.append_nil]

/-- The digits of a number have its value. -/
theorem digitsValue_ofNat (n : Nat) : digitsValue (Text.ofNat n) = n :=
  Nat.ofDigitChars_ten_toDigits

/-- Only zero is written with a zero in front. -/
theorem head?_ofNat_ne_zero {n : Nat} (h : n ≠ 0) : (Text.ofNat n).head? ≠ some '0' := by
  have hdigit : ∀ d < 10, d ≠ 0 → Nat.digitChar d ≠ '0' := by decide
  induction n using Nat.strong_induction_on with
  | _ n ih =>
    rw [Text.ofNat, Nat.toDigits_eq_if (by decide)]
    split
    · rename_i hlt
      simpa using hdigit n hlt h
    · rename_i hge
      rw [List.head?_append_of_ne_nil _ Nat.toDigits_ne_nil]
      exact ih (n / 10) (by omega) (by omega)

/-- An unsigned number is read as it was written. -/
theorem unsignedNumber?_ofNat {rest : Text} (h : Closes rest) (negative : Bool) (n : Nat) :
    unsignedNumber? negative (Text.ofNat n ++ rest) =
      some (.int (if negative then -(n : Int) else n), rest) := by
  obtain ⟨first, others, hdigits⟩ := List.exists_cons_of_ne_nil (l := Text.ofNat n)
    Nat.toDigits_ne_nil
  -- a zero in front is the only digit, so nothing is left of the digits in either case
  have hparts : (if first == '0' then (['0'], others ++ rest) else (first :: others, rest)) =
      (Text.ofNat n, rest) := by
    split
    · rename_i hzero
      have hn : n = 0 := by
        by_contra hn
        refine head?_ofNat_ne_zero hn ?_
        rw [hdigits, eq_of_beq hzero]
        rfl
      subst hn
      obtain ⟨-, rfl⟩ := List.cons.inj (show '0' :: [] = first :: others from hdigits)
      rfl
    · rw [hdigits]
  obtain ⟨-, hfraction, hexponent⟩ := h.not_number
  rw [unsignedNumber?, takeDigits_ofNat h, hdigits]
  dsimp only
  rw [hparts]
  simp only [hfraction, Option.getD_none, hexponent, List.isEmpty_nil, Bool.not_true,
    digitsValue_ofNat]

/-- A written integer starts with a digit or a minus sign. -/
theorem exists_cons_ofInt (n : Int) :
    ∃ c s, Text.ofInt n = c :: s ∧ (c.isDigit = true ∨ c = '-') := by
  cases n with
  | ofNat m =>
    obtain ⟨c, s, hm⟩ := List.exists_cons_of_ne_nil (l := Text.ofNat m) Nat.toDigits_ne_nil
    exact ⟨c, s, hm, .inl (Text.isDigit_of_mem_ofNat (hm ▸ List.mem_cons_self))⟩
  | negSucc m => exact ⟨'-', _, rfl, .inr rfl⟩

/-- A text that starts with a digit, or with a minus sign and a digit, starts with no word. -/
theorem word?_eq_none {c : Char} (h : c.isDigit = true) (s : Text) :
    word? (c :: s) = none ∧ word? ('-' :: c :: s) = none := by
  have hne : ∀ d, d.isDigit = false → c ≠ d := by
    rintro d hd rfl
    rw [hd] at h
    cases h
  have hn := hne 'n' rfl
  have ht := hne 't' rfl
  have hf := hne 'f' rfl
  have hN := hne 'N' rfl
  have hI := hne 'I' rfl
  have hminus := hne '-' rfl
  constructor <;> simp [word?, Text.after?, *]

/-- An integer is read as it was written. -/
theorem scalar?_ofInt {rest : Text} (h : Closes rest) (n : Int) :
    scalar? (Text.ofInt n ++ rest) = some (.num (.int n), rest) := by
  have hfirst : ∀ m, ∃ c s, Text.ofNat m = c :: s ∧ c.isDigit = true := by
    intro m
    obtain ⟨c, s, hm⟩ := List.exists_cons_of_ne_nil (l := Text.ofNat m) Nat.toDigits_ne_nil
    exact ⟨c, s, hm, Text.isDigit_of_mem_ofNat (hm ▸ List.mem_cons_self)⟩
  cases n with
  | ofNat m =>
    obtain ⟨c, s, hm, hc⟩ := hfirst m
    have hread := unsignedNumber?_ofNat h false m
    rw [hm, List.cons_append] at hread
    have hminus : c ≠ '-' := by
      rintro rfl
      cases hc
    rw [Text.ofInt, hm, List.cons_append, scalar?, (word?_eq_none hc _).1]
    · dsimp only
      rw [hread]
      rfl
    · exact fun _ he => hminus (List.cons.inj he).1
  | negSucc m =>
    obtain ⟨c, s, hm, hc⟩ := hfirst (m + 1)
    have hread := unsignedNumber?_ofNat h true (m + 1)
    rw [hm, List.cons_append] at hread
    rw [Text.ofInt, List.cons_append, hm, List.cons_append, scalar?, (word?_eq_none hc _).2]
    dsimp only
    rw [hread]
    rfl

/-- A word is read as it was written. -/
theorem scalar?_word (rest : Text) :
    scalar? ("null".toList ++ rest) = some (.null, rest) ∧
      scalar? ("true".toList ++ rest) = some (.bool true, rest) ∧
      scalar? ("false".toList ++ rest) = some (.bool false, rest) := by
  simp [scalar?, word?, Text.after?]

end Json

end SourceIndex
