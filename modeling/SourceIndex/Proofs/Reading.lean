import SourceIndex.Proofs.Infix

/-!
# Texts read where they were written

What is read at the start of a text that is put together from a word, blanks and a rest is this word and
this rest, if the rest does not go on with what is read. Where a part ends is told by its boundary: the
first character of the rest is of another class than those of the part.
-/

namespace SourceIndex

namespace Text

/-! ## Parts up to a boundary -/

section Boundary

variable {p : Char → Bool} {a b r s : Text}

/-- What holds of the first character holds of whatever the text starts with. -/
theorem forall_mem_head?_cons {P : Char → Prop} {c : Char} (h : P c) (s : Text) :
    ∀ d ∈ (c :: s).head?, P d := by
  intro d hd
  obtain rfl : c = d := Option.mem_some.mp hd
  exact h

/-- The part in front of a boundary is the longest one of its class. -/
theorem takeWhile_append_boundary (ha : ∀ c ∈ a, p c = true) (hr : ∀ c ∈ r.head?, p c = false) :
    (a ++ r).takeWhile p = a ∧ (a ++ r).dropWhile p = r := by
  rw [List.takeWhile_append_of_pos ha, List.dropWhile_append_of_pos ha]
  cases r with
  | nil => exact ⟨List.append_nil a, rfl⟩
  | cons c r =>
    have hc : ¬ p c = true := Bool.not_eq_true _ ▸ hr c rfl
    rw [List.takeWhile_cons_of_neg hc, List.dropWhile_cons_of_neg hc, List.append_nil]
    exact ⟨rfl, rfl⟩

/-- A text is split at its boundary. -/
theorem span_append_boundary (ha : ∀ c ∈ a, p c = true) (hr : ∀ c ∈ r.head?, p c = false) :
    (a ++ r).span p = (a, r) := by
  obtain ⟨htake, hdrop⟩ := takeWhile_append_boundary ha hr
  rw [List.span_eq_takeWhile_dropWhile, htake, hdrop]

/-- A text has one part in front of its boundary. -/
theorem append_inj_of_boundary (ha : ∀ c ∈ a, p c = true) (hr : ∀ c ∈ r.head?, p c = false)
    (hb : ∀ c ∈ b, p c = true) (hs : ∀ c ∈ s.head?, p c = false) (h : a ++ r = b ++ s) :
    a = b ∧ r = s := by
  obtain ⟨htake, hdrop⟩ := takeWhile_append_boundary ha hr
  obtain ⟨htake', hdrop'⟩ := takeWhile_append_boundary hb hs
  rw [h] at htake hdrop
  exact ⟨htake.symm.trans htake', hdrop.symm.trans hdrop'⟩

end Boundary

/-! ## Words and blanks -/

variable {s w z : Text}

/-- What is read behind a word is what was written behind it. -/
theorem after?_self (w rest : Text) : (w ++ rest).after? w = some rest := by
  induction w with
  | nil => cases rest <;> rfl
  | cons d w ih => rw [List.cons_append, after?, if_pos (beq_self_eq_true d), ih]

/-- A word that does not have the character is read in front of it. -/
theorem after?_append_cons {c : Char} (hc : c ∉ w) (s rest : Text) :
    (s ++ c :: rest).after? w = (s.after? w).map (· ++ c :: rest) := by
  induction w generalizing s with
  | nil => cases s <;> rfl
  | cons d w ih =>
    obtain ⟨hd, hc⟩ := not_or.mp (mt List.mem_cons.mpr hc)
    cases s with
    | nil => exact if_neg (by simpa using hd)
    | cons e s =>
      rw [List.cons_append, after?, after?]
      split
      · exact ih hc s
      · rfl

theorem trimStart_append (hz : z.isBlank = true) (s : Text) : (z ++ s).trimStart = s.trimStart :=
  List.dropWhile_append_of_pos (List.all_eq_true.mp hz)

theorem trimStart_eq_self (h : ∀ c ∈ s.head?, isBlankChar c = false) : s.trimStart = s := by
  cases s with
  | nil => rfl
  | cons c s => exact trimStart_cons (h c rfl)

theorem trimEnd_append (hz : z.isBlank = true) (s : Text) : (s ++ z).trimEnd = s.trimEnd := by
  have hreverse : ∀ c ∈ z.reverse, isBlankChar c = true := fun c hc =>
    List.all_eq_true.mp hz c (List.mem_reverse.mp hc)
  rw [trimEnd, List.reverse_append, List.dropWhile_append_of_pos hreverse, trimEnd]

theorem trimEnd_eq_self (h : ∀ c ∈ s.getLast?, isBlankChar c = false) : s.trimEnd = s := by
  rw [← List.head?_reverse] at h
  have hreverse : s.reverse.dropWhile isBlankChar = s.reverse := trimStart_eq_self h
  rw [trimEnd, hreverse, List.reverse_reverse]

/-- A text that neither starts nor ends with a blank is trimmed. -/
theorem trim_eq_self (hfirst : ∀ c ∈ s.head?, isBlankChar c = false)
    (hlast : ∀ c ∈ s.getLast?, isBlankChar c = false) : s.trim = s := by
  rw [trim, trimStart_eq_self hfirst, trimEnd_eq_self hlast]

/-- Blanks around a text do not matter to what is left when it is trimmed. -/
theorem trim_surrounded {a b : Text} (ha : a.isBlank = true) (hb : b.isBlank = true) (s : Text) :
    (a ++ s ++ b).trim = s.trim := by
  rw [List.append_assoc, trim, trimStart_append ha, trimStart, List.dropWhile_append]
  split
  · rename_i hempty
    -- nothing is left of the text, so the blanks behind it are blanks in front as well
    have hs : s.trimStart = [] := List.isEmpty_iff.mp hempty
    rw [List.dropWhile_eq_nil_iff.mpr (List.all_eq_true.mp hb), trim, hs]
  · exact trimEnd_append hb _

theorem afterBlanks?_self (hz : z.isBlank = true) (hne : z ≠ [])
    (hs : ∀ c ∈ s.head?, isBlankChar c = false) : (z ++ s).afterBlanks? = some s := by
  obtain ⟨c, z, rfl⟩ := List.exists_cons_of_ne_nil hne
  obtain ⟨hc, hz⟩ := Bool.and_eq_true_iff.mp hz
  rw [List.cons_append, afterBlanks?, if_pos hc, trimStart_append hz, trimStart_eq_self hs]

/-- An optional word with blanks behind it is skipped where it stands. -/
theorem skipWord_self (w : Text) (hz : z.isBlank = true) (hne : z ≠ [])
    (hs : ∀ c ∈ s.head?, isBlankChar c = false) : (w ++ (z ++ s)).skipWord w = s := by
  rw [skipWord, after?_self, Option.bind_some, afterBlanks?_self hz hne hs, Option.getD_some]

/-- The word that is read is the one that was written. -/
theorem takeWord_self {rest : Text} (hw : ∀ c ∈ w, isWordChar c = true) (hne : w ≠ [])
    (hrest : ∀ c ∈ rest.head?, isWordChar c = false) : (w ++ rest).takeWord = some (w, rest) := by
  obtain ⟨c, more, rfl⟩ := List.exists_cons_of_ne_nil hne
  rw [takeWord, span_append_boundary hw hrest]

theorem takeWord_eq_none (h : ∀ c ∈ s.head?, isWordChar c = false) : s.takeWord = none := by
  have hspan : s.span isWordChar = ([], s) :=
    span_append_boundary (fun c hc => absurd hc List.not_mem_nil) h
  rw [takeWord, hspan]

end Text

/-- What a pattern reads at the start of a text is found first. -/
theorem Pattern.find?_of_some {α : Type} {p : Pattern α} {s rest : Text} {a : α} (hne : s ≠ [])
    (h : p s = some (a, rest)) : p.find? s = some a := by
  obtain ⟨c, s, rfl⟩ := List.exists_cons_of_ne_nil hne
  rw [find?, h]

end SourceIndex
