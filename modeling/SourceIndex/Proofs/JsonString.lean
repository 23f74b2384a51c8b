import SourceIndex.Json.Reader
import SourceIndex.Json.Writer

/-!
# Strings are read as they were written

A string is written in printable ASCII: any other character becomes an escape of its own, or the
escapes of its one or two UTF-16 units. The reader turns the escapes into units again and joins pairs
of units, so it gives the string back, and the text behind the closing quote.
-/

namespace SourceIndex

/-- The character is a space or printable ASCII. -/
def IsPrintable (c : Char) : Prop :=
  0x20 ≤ c.toNat ∧ c.toNat < 0x7F

instance (c : Char) : Decidable (IsPrintable c) :=
  inferInstanceAs (Decidable (_ ∧ _))

theorem isPrintable_of_all {s : Text} (h : (s.all fun c => decide (IsPrintable c)) = true) :
    ∀ c ∈ s, IsPrintable c :=
  fun c hc => of_decide_eq_true (List.all_eq_true.mp h c hc)

/-- The UTF-16 units of a character. -/
def utf16Units (c : Char) : List Nat :=
  if c.toNat < 0x10000 then [c.toNat]
  else [0xD800 + (c.toNat - 0x10000) / 0x400, 0xDC00 + (c.toNat - 0x10000) % 0x400]

/-! ## Written characters -/

/-- A character is written as an escape of its own, as it is, or as the escapes of its units. -/
theorem writeChar_cases (c : Char) :
    (∃ e, writeChar c = ['\\', e] ∧ Json.escapeChar? e = some c ∧ e ≠ 'u' ∧ IsPrintable e ∧
      utf16Units c = [c.toNat]) ∨
    (writeChar c = [c] ∧ IsPrintable c ∧ c ≠ '"' ∧ c ≠ '\\') ∨
    writeChar c = (utf16Units c).flatMap unitEscape := by
  rw [writeChar]
  by_cases hescape : c ∈ ['"', '\\', '\n', '\r', '\t', '\x08', '\x0c']
  · left
    simp only [List.mem_cons, List.not_mem_nil, or_false] at hescape
    rcases hescape with rfl | rfl | rfl | rfl | rfl | rfl | rfl
    · exact ⟨'"', by decide⟩
    · exact ⟨'\\', by decide⟩
    · exact ⟨'n', by decide⟩
    · exact ⟨'r', by decide⟩
    · exact ⟨'t', by decide⟩
    · exact ⟨'b', by decide⟩
    · exact ⟨'f', by decide⟩
  · right
    simp only [List.mem_cons, List.not_mem_nil, or_false, not_or] at hescape
    obtain ⟨hquote, hbackslash, hnewline, hreturn, htab, hback, hfeed⟩ := hescape
    simp only [beq_iff_eq, hquote, hbackslash, hnewline, hreturn, htab, hback, hfeed, if_false]
    split
    · rename_i hprintable
      exact .inl ⟨rfl, hprintable, hquote, hbackslash⟩
    · refine .inr ?_
      rw [utf16Units]
      split
      · rw [List.flatMap_singleton]
      · rw [List.flatMap_cons, List.flatMap_singleton]

theorem isPrintable_digitChar : ∀ d < 16, IsPrintable (Nat.digitChar d) := by decide

/-- The escape of a unit is printable. -/
theorem isPrintable_of_mem_unitEscape {n : Nat} {d : Char} (h : d ∈ unitEscape n) :
    IsPrintable d := by
  rw [unitEscape, List.mem_cons, List.mem_cons] at h
  rcases h with rfl | rfl | h
  · decide
  · decide
  · obtain ⟨place, -, rfl⟩ := List.mem_map.mp h
    exact isPrintable_digitChar _ (Nat.mod_lt _ (by decide))

/-- What is written of a character is printable. -/
theorem isPrintable_of_mem_writeChar {c d : Char} (h : d ∈ writeChar c) : IsPrintable d := by
  rcases writeChar_cases c with ⟨e, hwrite, -, -, he, -⟩ | ⟨hwrite, hc, -, -⟩ | hwrite
  · rw [hwrite, List.mem_cons, List.mem_singleton] at h
    rcases h with rfl | rfl
    · decide
    · exact he
  · rw [hwrite, List.mem_singleton] at h
    exact h ▸ hc
  · rw [hwrite] at h
    obtain ⟨unit, -, hd⟩ := List.mem_flatMap.mp h
    exact isPrintable_of_mem_unitEscape hd

/-- A written string is printable. -/
theorem isPrintable_of_mem_writeString {s : Text} {d : Char} (h : d ∈ writeString s) :
    IsPrintable d := by
  rw [writeString, List.mem_append, List.mem_cons, List.mem_singleton] at h
  rcases h with (rfl | h) | rfl
  · decide
  · obtain ⟨c, -, hd⟩ := List.mem_flatMap.mp h
    exact isPrintable_of_mem_writeChar hd
  · decide

namespace Json

/-! ## Units that are read -/

theorem hexValue?_digitChar : ∀ d < 16, hexValue? (Nat.digitChar d) = some d := by decide

/-- The escape of a unit is read as the unit. -/
theorem unitsFrom?_unitEscape {n : Nat} (h : n < 0x10000) (read : List Nat) (rest : Text) :
    unitsFrom? read (unitEscape n ++ rest) = unitsFrom? (n :: read) rest := by
  have hdigits : unitEscape n = ['\\', 'u', Nat.digitChar (n / 0x1000 % 16),
      Nat.digitChar (n / 0x100 % 16), Nat.digitChar (n / 0x10 % 16), Nat.digitChar (n / 1 % 16)] :=
    rfl
  have hvalue : hex4? (Nat.digitChar (n / 0x1000 % 16)) (Nat.digitChar (n / 0x100 % 16))
      (Nat.digitChar (n / 0x10 % 16)) (Nat.digitChar (n / 1 % 16)) = some n := by
    simp only [hex4?, hexValue?_digitChar _ (Nat.mod_lt _ (by decide : 16 > 0)),
      Option.bind_eq_bind, Option.bind_some, Option.some.injEq]
    omega
  rw [hdigits]
  simp only [List.cons_append, List.nil_append, unitsFrom?, hvalue]

/-- The units of a character are units. -/
theorem lt_of_mem_utf16Units {c : Char} {n : Nat} (h : n ∈ utf16Units c) : n < 0x10000 := by
  have hvalid : c.toNat < 0xD800 ∨ 0xDFFF < c.toNat ∧ c.toNat < 0x110000 := c.valid
  rw [utf16Units] at h
  split at h
  · rw [List.mem_singleton] at h
    omega
  · rw [List.mem_cons, List.mem_singleton] at h
    omega

/-- Escapes of units are read as the units. -/
theorem unitsFrom?_flatMap_unitEscape {units : List Nat} (h : ∀ n ∈ units, n < 0x10000)
    (read : List Nat) (rest : Text) :
    unitsFrom? read (units.flatMap unitEscape ++ rest) =
      unitsFrom? (units.reverse ++ read) rest := by
  induction units generalizing read with
  | nil => rfl
  | cons n units ih =>
    rw [List.flatMap_cons, List.append_assoc, unitsFrom?_unitEscape (h n List.mem_cons_self),
      ih fun m hm => h m (List.mem_cons_of_mem _ hm), List.reverse_cons, List.append_assoc]
    rfl

/-- What is written of a character is read as its units. -/
theorem unitsFrom?_writeChar (c : Char) (read : List Nat) (rest : Text) :
    unitsFrom? read (writeChar c ++ rest) = unitsFrom? ((utf16Units c).reverse ++ read) rest := by
  rcases writeChar_cases c with ⟨e, hwrite, hescape, hu, -, hunits⟩ | ⟨hwrite, hc, hquote, hslash⟩ |
    hwrite
  · rw [hwrite, hunits]
    simp [unitsFrom?, hescape, hu]
  · obtain ⟨hlow, hhigh⟩ := hc
    have hunits : utf16Units c = [c.toNat] := if_pos (by omega)
    have hallowed : (decide (c.toNat < 0x20) || c == '\\') = false := by simpa [hslash] using hlow
    rw [hwrite, hunits, List.singleton_append, unitsFrom?, hallowed, if_neg Bool.false_ne_true]
    · rfl
    · exact hquote
    · exact fun _ _ _ _ _ h _ => hslash h
    · exact fun _ _ h _ => hslash h
  · rw [hwrite]
    exact unitsFrom?_flatMap_unitEscape (fun _ => lt_of_mem_utf16Units) read rest

/-- What is written of characters is read as their units. -/
theorem unitsFrom?_flatMap_writeChar (s : Text) (read : List Nat) (rest : Text) :
    unitsFrom? read (s.flatMap writeChar ++ '"' :: rest) =
      some (read.reverse ++ s.flatMap utf16Units, rest) := by
  induction s generalizing read with
  | nil => simp [unitsFrom?]
  | cons c s ih =>
    rw [List.flatMap_cons, List.append_assoc, unitsFrom?_writeChar, ih, List.reverse_append,
      List.reverse_reverse, List.append_assoc, List.flatMap_cons]

/-! ## Units that are joined -/

/-- A character has no unit that is half of a pair unless it has two units. -/
theorem not_isUnit_toNat (c : Char) : isHighUnit c.toNat = false ∧ isLowUnit c.toNat = false := by
  have hvalid : c.toNat < 0xD800 ∨ 0xDFFF < c.toNat ∧ c.toNat < 0x110000 := c.valid
  simp only [isHighUnit, isLowUnit, decide_eq_false_iff_not]
  omega

/-- A unit that does not start a pair becomes a character of its own. -/
theorem joinUnits_cons {unit : Nat} (h : isHighUnit unit = false) (units : List Nat) :
    joinUnits (unit :: units) = unitChar unit :: joinUnits units := by
  cases units with
  | nil => rfl
  | cons low rest => rw [joinUnits, h, Bool.false_and, if_neg Bool.false_ne_true]

/-- The units of a character are joined to the character. -/
theorem joinUnits_utf16Units (c : Char) (units : List Nat) :
    joinUnits (utf16Units c ++ units) = c :: joinUnits units := by
  obtain ⟨hhigh, hlow⟩ := not_isUnit_toNat c
  rw [utf16Units]
  split
  · rw [List.singleton_append, joinUnits_cons hhigh, unitChar, hhigh, hlow, Bool.or_self,
      if_neg Bool.false_ne_true, Char.ofNat_toNat]
  · rename_i hpair
    have hvalid : c.toNat < 0xD800 ∨ 0xDFFF < c.toNat ∧ c.toNat < 0x110000 := c.valid
    have hunits : isHighUnit (0xD800 + (c.toNat - 0x10000) / 0x400) = true ∧
        isLowUnit (0xDC00 + (c.toNat - 0x10000) % 0x400) = true := by
      simp only [isHighUnit, isLowUnit, decide_eq_true_eq]
      omega
    have hchar : pairChar (0xD800 + (c.toNat - 0x10000) / 0x400)
        (0xDC00 + (c.toNat - 0x10000) % 0x400) = c := by
      refine Eq.trans (congrArg Char.ofNat ?_) (Char.ofNat_toNat c)
      omega
    rw [List.cons_append, List.singleton_append, joinUnits, hunits.1, hunits.2, Bool.and_self,
      if_pos rfl, hchar]

/-- The units of a text are joined to the text. -/
theorem joinUnits_flatMap_utf16Units (s : Text) : joinUnits (s.flatMap utf16Units) = s := by
  induction s with
  | nil => rfl
  | cons c s ih => rw [List.flatMap_cons, joinUnits_utf16Units, ih]

/-- A string is read as it was written, up to its closing quote. -/
theorem string?_flatMap_writeChar (s rest : Text) :
    string? (s.flatMap writeChar ++ '"' :: rest) = some (s, rest) := by
  rw [string?, unitsFrom?_flatMap_writeChar]
  simp [joinUnits_flatMap_utf16Units]

end Json

end SourceIndex
