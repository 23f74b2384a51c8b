/-!
# Texts

A text is the list of its code points: lengths, positions and orders all count code points. Lines
are the parts between newlines, so a text with `n` newlines has `n + 1` lines and `unlines` puts
them together again. `contains` is the substring test on which most heuristics of this library rest.
-/

namespace SourceIndex

/-- A text as the list of its code points. -/
abbrev Text := List Char

namespace Text

/-- The parts of a text between its newlines. -/
def lines (s : Text) : List Text :=
  s.splitOn '\n'

/-- The lines put together, with a newline between neighbours. -/
def unlines (ls : List Text) : Text :=
  List.intercalate ['\n'] ls

/-- No part of a split text has the character at which it was split. -/
theorem not_mem_of_mem_splitOn {s part : Text} {c : Char} (h : part ∈ s.splitOn c) : c ∉ part := by
  rw [List.splitOn_eq_splitOnP] at h
  induction s generalizing part with
  | nil =>
    rw [List.splitOnP_nil, List.mem_singleton] at h
    simp [h]
  | cons d rest ih =>
    rw [List.splitOnP_cons_eq_if_modifyHead] at h
    by_cases hd : d = c
    · rw [if_pos (by simpa using hd)] at h
      rcases List.mem_cons.mp h with rfl | h
      · exact List.not_mem_nil
      · exact ih h
    · rw [if_neg (by simpa using hd)] at h
      obtain ⟨first, others, he⟩ := List.exists_cons_of_ne_nil (List.splitOnP_ne_nil (· == c) rest)
      rw [he, List.modifyHead_cons] at h
      rcases List.mem_cons.mp h with rfl | h
      · rw [List.mem_cons, not_or]
        exact ⟨fun e => hd e.symm, ih (he ▸ List.mem_cons_self)⟩
      · exact ih (he ▸ List.mem_cons_of_mem _ h)

/-- The text after `w`, if the text starts with `w`. -/
def after? : Text → Text → Option Text
  | s, [] => some s
  | [], _ :: _ => none
  | c :: s, d :: w => if c == d then after? s w else none

/-- Whether the text starts with `w`. -/
def startsWith (s w : Text) : Bool :=
  w.isPrefixOf s

/-- Whether the text ends with `w`. -/
def endsWith (s w : Text) : Bool :=
  w.isSuffixOf s

/-- Whether `w` occurs somewhere in the text. -/
def contains (s w : Text) : Bool :=
  w.isPrefixOf s ||
    match s with
    | [] => false
    | _ :: rest => contains rest w

/-- Whether the first text comes before the second in the order of code points. -/
def precedes (s t : Text) : Bool :=
  List.lex s t (fun c d => c.toNat < d.toNat)

/-- The decimal digits of a number. -/
def ofNat (n : Nat) : Text :=
  Nat.toDigits 10 n

/-- The decimal digits of an integer, with a minus sign in front of a negative one. -/
def ofInt : Int → Text
  | .ofNat n => ofNat n
  | .negSucc n => '-' :: ofNat (n + 1)

/-- The last `places` hexadecimal digits of a number, in lower case. -/
def hex (places n : Nat) : Text :=
  (List.range places).reverse.map fun place => Nat.digitChar (n / Nat.pow 16 place % 16)

end Text

end SourceIndex
