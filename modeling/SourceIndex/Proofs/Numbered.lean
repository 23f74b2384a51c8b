import SourceIndex.Path.Name
import SourceIndex.Proofs.Literal
import SourceIndex.Proofs.Reading
import SourceIndex.Proofs.Terms

/-!
# Texts with numbers inside

Texts that differ in a number only are read alike: a digit is part of a word, it is no blank, it opens and
closes nothing, and its case is its own. So a word that ends in a number is read whole, trimming reaches
from either end up to the number at most, a block ends where it does without the number, and a path has
the name and the extension that stand around its number.
-/

namespace SourceIndex

/-! ## Numbers -/

/-- A text of one or more decimal digits. -/
structure IsNumber (n : Text) : Prop where
  ne_nil : n ≠ []
  isDigit : ∀ c ∈ n, c.isDigit = true

/-- The decimal digits. -/
def decimalDigits : Text :=
  "0123456789".toList

/-- There are ten decimal digits. -/
theorem mem_decimalDigits {c : Char} (h : c.isDigit = true) : c ∈ decimalDigits := by
  have hrange : 48 ≤ c.toNat ∧ c.toNat ≤ 57 := by
    simpa [Char.isDigit, UInt32.le_iff_toNat_le] using h
  have hdigit : ∀ n ∈ List.range' 48 10, Char.ofNat n ∈ decimalDigits := by decide
  rw [← Char.ofNat_toNat c]
  exact hdigit c.toNat (List.mem_range'_1.mpr (by omega))

/-- What holds of the decimal digits holds of a digit. -/
theorem of_isDigit {p : Char → Prop} [DecidablePred p]
    (hp : (decimalDigits.all fun c => decide (p c)) = true) {c : Char} (h : c.isDigit = true) :
    p c :=
  of_decide_eq_true (List.all_eq_true.mp hp c (mem_decimalDigits h))

/-- The digits of a natural number are a number. -/
theorem isNumber_ofNat (n : Nat) : IsNumber (Text.ofNat n) :=
  ⟨Nat.toDigits_ne_nil, fun _ hc => Text.isDigit_of_mem_ofNat hc⟩

namespace IsNumber

variable {n : Text} (hn : IsNumber n)
include hn

/-- What holds of all decimal digits holds of those of a number. -/
theorem forall_mem {p : Char → Bool} (hp : decimalDigits.all p = true) : ∀ c ∈ n, p c = true :=
  fun c hc => List.all_eq_true.mp hp c (mem_decimalDigits (hn.isDigit c hc))

/-- What holds of all decimal digits holds around a number if it holds in front of it and behind it. -/
theorem all_append {p : Char → Bool} (hp : decimalDigits.all p = true) {a b : Text}
    (ha : a.all p = true) (hb : b.all p = true) : (a ++ n ++ b).all p = true := by
  rw [List.all_append, List.all_append, ha, hb, List.all_eq_true.mpr (hn.forall_mem hp)]
  rfl

/-- A number starts with a digit. -/
theorem exists_eq_cons : ∃ d rest, n = d :: rest ∧ d.isDigit = true := by
  obtain ⟨d, rest, rfl⟩ := List.exists_cons_of_ne_nil hn.ne_nil
  exact ⟨d, rest, rfl, hn.isDigit d List.mem_cons_self⟩

/-- A number ends with a digit. -/
theorem exists_eq_append : ∃ front d, n = front ++ [d] ∧ d.isDigit = true := by
  refine ⟨n.dropLast, n.getLast hn.ne_nil, (List.dropLast_append_getLast hn.ne_nil).symm, ?_⟩
  exact hn.isDigit _ (List.getLast_mem hn.ne_nil)

end IsNumber

/-- A digit is not blank. -/
theorem isBlankChar_of_isDigit {c : Char} (h : c.isDigit = true) : isBlankChar c = false :=
  of_isDigit (p := fun c => isBlankChar c = false) (by decide) h

/-- A digit has no case, and it is seen when the case of its neighbours is looked for. -/
theorem isCaseBoundary_of_isDigit {c : Char} (h : c.isDigit = true) : IsCaseBoundary c := by
  obtain ⟨hdotted, hsigma, hlow, hignored, hcased⟩ := of_isDigit
    (p := fun c => c ≠ 'İ' ∧ c ≠ 'Σ' ∧ lowerChar c = c ∧ isCaseIgnored c = false ∧
      isCased c = false) (by decide) h
  exact ⟨⟨hdotted, hsigma, hlow⟩, hignored, hcased⟩

/-! ## Reading around a number -/

namespace Text

variable {n : Text} (hn : IsNumber n)
include hn

theorem trimStart_number (a r : Text) : (a ++ (n ++ r)).trimStart = a.trimStart ++ (n ++ r) := by
  obtain ⟨d, rest, rfl, hd⟩ := hn.exists_eq_cons
  rw [trimStart, List.dropWhile_append]
  split
  · rename_i hempty
    rw [trimStart, List.isEmpty_iff.mp hempty]
    exact trimStart_cons (isBlankChar_of_isDigit hd)
  · rfl

theorem trimEnd_number (r b : Text) : (r ++ n ++ b).trimEnd = r ++ n ++ b.trimEnd := by
  obtain ⟨front, d, rfl, hd⟩ := hn.exists_eq_append
  rw [trimEnd, List.reverse_append, List.dropWhile_append]
  split
  · rename_i hempty
    rw [trimEnd, List.isEmpty_iff.mp hempty, List.reverse_nil, List.append_nil, ← List.append_assoc,
      List.reverse_append, List.reverse_singleton, List.singleton_append]
    rw [List.dropWhile_cons_of_neg (by simp [isBlankChar_of_isDigit hd])]
    simp
  · rw [trimEnd, List.reverse_append, List.reverse_reverse]

/-- Trimming reaches up to a number at most. -/
theorem trim_number (a b : Text) : (a ++ n ++ b).trim = a.trimStart ++ n ++ b.trimEnd := by
  rw [trim, List.append_assoc a, trimStart_number hn, ← List.append_assoc, trimEnd_number hn]

/-- A word that ends in a number is read whole. -/
theorem takeWord_number {w rest : Text} (hw : w.all isWordChar = true)
    (hrest : rest.head?.all (fun c => !isWordChar c) = true) :
    (w ++ n ++ rest).takeWord = some (w ++ n, rest) := by
  have hend : ∀ c ∈ rest.head?, isWordChar c = false := by
    simpa [Option.all_eq_true] using hrest
  refine takeWord_self (fun c hc => ?_) (List.append_ne_nil_of_right_ne_nil w hn.ne_nil) hend
  rcases List.mem_append.mp hc with hc | hc
  · exact List.all_eq_true.mp hw c hc
  · exact hn.forall_mem (by decide) c hc

/-- What stands behind a number is lowered on its own. -/
theorem exists_lower_number (a b : Text) : ∃ s, (a ++ n ++ b).lower = s ++ b.lower := by
  obtain ⟨front, d, rfl, hd⟩ := hn.exists_eq_append
  refine ⟨(a ++ front).lower ++ [d], ?_⟩
  have hsplit : a ++ (front ++ [d]) ++ b = (a ++ front) ++ d :: b := by simp
  rw [hsplit, lower_append_cons (isCaseBoundary_of_isDigit hd)]
  simp

end Text

/-! ## Code around a number -/

/-- Two lines move the end of a block in the same way. -/
structure SameBrackets (line line' : Text) : Prop where
  feed_eq : ∀ d : BracketDepth, d.feed (withoutLiterals line) = d.feed (withoutLiterals line')
  ends_eq : endsStatement (withoutLiterals line) = endsStatement (withoutLiterals line')

theorem SameBrackets.refl (line : Text) : SameBrackets line line :=
  ⟨fun _ => rfl, rfl⟩

theorem SameBrackets.forall₂_refl (ls : List Text) : List.Forall₂ SameBrackets ls ls :=
  List.forall₂_same.mpr fun line _ => .refl line

/-- A block ends at the same line if its lines move its end in the same way. -/
theorem reachFrom?_of_sameBrackets {ls ls' : List Text} (h : List.Forall₂ SameBrackets ls ls')
    (d : BracketDepth) : reachFrom? d ls = reachFrom? d ls' := by
  induction h generalizing d with
  | nil => rfl
  | cons hline _ ih => rw [reachFrom?, reachFrom?, hline.feed_eq, hline.ends_eq, ih]

/-- Whether a character of a line neither opens nor closes a literal or a comment. -/
def isPlainCode (c : Char) : Bool :=
  !isQuote c && c != '/' && c != '\n'

/-- Plain code is kept. -/
theorem withoutLiterals_plain {s : Text} (h : s.all isPlainCode = true) (rest : Text) :
    withoutLiterals (s ++ rest) = s ++ withoutLiterals rest := by
  have hplain : ∀ c ∈ s, isQuote c = false ∧ c ≠ '/' ∧ c ≠ '\n' := by
    intro c hc
    simpa [isPlainCode, and_assoc] using List.all_eq_true.mp h c hc
  refine withoutLiterals_code ⟨fun c hc => (hplain c hc).1, fun i hi hslash => ?_⟩
  exact absurd hslash (hplain _ (List.getElem_mem hi)).2.1

/-- Plain code in front of a number, and more of it behind the number that is not blank. -/
@[mk_iff]
structure IsFrame (a b : Text) : Prop where
  before : a.all isPlainCode = true
  behind : b.all isPlainCode = true
  not_blank : b.isBlank = false

instance (a b : Text) : Decidable (IsFrame a b) :=
  decidable_of_iff' _ (isFrame_iff a b)

/-- A line of plain code with a number is plain code. -/
theorem IsFrame.isPlainCode {a b n : Text} (h : IsFrame a b) (hn : IsNumber n) :
    (a ++ n ++ b).all isPlainCode = true :=
  hn.all_append (by decide) h.before h.behind

/-- Whether a character stands for itself inside a literal, whatever its quotes are. -/
def isPlainInside (c : Char) : Bool :=
  !isQuote c && c != '\\' && c != '\n'

/-- A literal with plain characters inside is erased. -/
theorem withoutLiterals_literal {quote : Char} (hquote : isQuote quote = true) {body : Text}
    (hbody : body.all isPlainInside = true) (rest : Text) :
    withoutLiterals (quote :: body ++ quote :: rest) = withoutLiterals rest := by
  have hplain : ∀ c ∈ body, isQuote c = false ∧ c ≠ '\\' ∧ c ≠ '\n' := by
    intro c hc
    simpa [isPlainInside, and_assoc] using List.all_eq_true.mp hbody c hc
  have hliteral : ∀ s : Text, (∀ c ∈ s, isQuote c = false ∧ c ≠ '\\' ∧ c ≠ '\n') →
      IsLiteralBody quote s := by
    intro s hs
    induction s with
    | nil => exact .nil
    | cons c s ih =>
      obtain ⟨⟨hc, hescape, -⟩, hrest⟩ := List.forall_mem_cons.mp hs
      refine .plain ?_ hescape (ih hrest)
      rintro rfl
      rw [hquote] at hc
      cases hc
  have hline : '\n' ∉ (Segment.literal quote body).text := by
    rw [Segment.text, List.mem_cons, List.mem_append, List.mem_singleton]
    have hquoteLine : '\n' ≠ quote := by
      rintro rfl
      exact absurd hquote (by decide)
    rintro (h | h | h)
    · exact hquoteLine h
    · exact (hplain _ h).2.2 rfl
    · exact hquoteLine h
  have herased : withoutLiterals ((Segment.literal quote body).text ++ rest) =
      (Segment.literal quote body).kept ++ withoutLiterals rest :=
    withoutLiterals_segment ⟨hquote, hliteral body hplain⟩ hline
  rw [Segment.text, Segment.kept, List.nil_append, List.cons_append, List.append_assoc] at herased
  exact herased

/-- What stands behind a text decides whether it ends a statement, unless it is blank. -/
theorem endsStatement_append (s : Text) {b : Text} (hb : b.isBlank = false) :
    endsStatement (s ++ b) = endsStatement b := by
  have hkept : ¬ (b.reverse.dropWhile isBlankChar).isEmpty := by
    rw [List.isEmpty_iff, List.dropWhile_eq_nil_iff]
    intro hblank
    rw [Text.isBlank, List.all_eq_false] at hb
    obtain ⟨c, hc, hnot⟩ := hb
    exact hnot (hblank c (List.mem_reverse.mpr hc))
  rw [endsStatement, endsStatement, Text.trimEnd, Text.trimEnd, List.reverse_append,
    List.dropWhile_append, if_neg hkept, List.getLast?_reverse, List.getLast?_reverse,
    List.head?_append_of_ne_nil]
  exact fun hnil => hkept (List.isEmpty_iff.mpr hnil)

/-- A digit opens and closes nothing. -/
theorem BracketDepth.step_of_isDigit {c : Char} (h : c.isDigit = true) (d : BracketDepth) :
    d.step c = d := by
  obtain ⟨h₁, h₂, h₃, h₄, h₅, h₆⟩ := of_isDigit
    (p := fun c => (c == '{') = false ∧ (c == '}') = false ∧ (c == '(') = false ∧
      (c == ')') = false ∧ (c == '[') = false ∧ (c == ']') = false) (by decide) h
  simp only [step, h₁, h₂, h₃, h₄, h₅, h₆, Bool.false_eq_true, if_false]

section SameBrackets

variable {n : Text} (hn : IsNumber n)
include hn

/-- A number opens and closes nothing. -/
theorem BracketDepth.feed_number (d : BracketDepth) : d.feed n = d := by
  have hsteps : ∀ s : Text, (∀ c ∈ s, c.isDigit = true) → d.feed s = d := by
    intro s hs
    induction s with
    | nil => rfl
    | cons c s ih =>
      obtain ⟨hc, hrest⟩ := List.forall_mem_cons.mp hs
      show (d.step c).feed s = d
      rw [step_of_isDigit hc, ih hrest]
  exact hsteps n hn.isDigit

theorem BracketDepth.feed_append_number (d : BracketDepth) (a b : Text) :
    d.feed (a ++ n ++ b) = d.feed (a ++ b) := by
  unfold feed
  rw [List.foldl_append, List.foldl_append, List.foldl_append]
  exact congrArg (fun d => feed d b) (feed_number hn _)

/-- A number in the plain code of a line does not move the end of a block. -/
theorem sameBrackets_number {a b : Text} (h : IsFrame a b) :
    SameBrackets (a ++ n ++ b) (a ++ b) := by
  have hkept : ∀ s : Text, s.all isPlainCode = true → withoutLiterals s = s := by
    intro s hs
    rw [← List.append_nil s, withoutLiterals_plain hs]
    rfl
  have hcode := hkept (a ++ n ++ b) (h.isPlainCode hn)
  have hcode' := hkept (a ++ b) (by rw [List.all_append, h.before, h.behind]; rfl)
  refine ⟨fun d => ?_, ?_⟩
  · rw [hcode, hcode', BracketDepth.feed_append_number hn]
  · rw [hcode, hcode', endsStatement_append _ h.not_blank, endsStatement_append _ h.not_blank]

/-- A number in a literal does not move the end of a block. -/
theorem sameBrackets_literal {a body b : Text} {quote : Char} (ha : a.all isPlainCode = true)
    (hquote : isQuote quote = true) (hbody : body.all isPlainInside = true) :
    SameBrackets (a ++ (quote :: (body ++ n) ++ quote :: b))
      (a ++ (quote :: body ++ quote :: b)) := by
  have hnumber : (body ++ n).all isPlainInside = true := by
    rw [← List.append_nil (body ++ n)]
    exact hn.all_append (by decide) hbody rfl
  have hsame : withoutLiterals (a ++ (quote :: (body ++ n) ++ quote :: b)) =
      withoutLiterals (a ++ (quote :: body ++ quote :: b)) := by
    rw [withoutLiterals_plain ha, withoutLiterals_plain ha, withoutLiterals_literal hquote hnumber,
      withoutLiterals_literal hquote hbody]
  exact ⟨fun d => by rw [hsame], by rw [hsame]⟩

end SameBrackets

/-! ## File names -/

/-- A text ends in one of the extensions if it ends in the case of one of them. -/
theorem Path.hasExtension_of_mem {extensions : List Text} {path s t e : Text}
    (hlower : path.lower = s ++ t) (he : e ∈ extensions) (hsuffix : e.lower <:+ t) :
    hasExtension extensions path = true := by
  refine List.any_eq_true.mpr ⟨e, he, ?_⟩
  rw [hlower, Text.endsWith, List.isSuffixOf_iff_suffix]
  exact hsuffix.trans (List.suffix_append s t)

/-- A text does not end in one of the extensions if each of them is apart from its end. -/
theorem Path.hasExtension_eq_false {extensions : List Text} {path s t : Text}
    (hlower : path.lower = s ++ t)
    (h : ∀ e ∈ extensions, ¬ e.lower <:+ t ∧ ¬ t <:+ e.lower) :
    hasExtension extensions path = false := by
  refine List.any_eq_false.mpr fun e he hsuffix => ?_
  rw [hlower, Text.endsWith, List.isSuffixOf_iff_suffix] at hsuffix
  rcases List.suffix_or_suffix_of_suffix hsuffix (List.suffix_append s t) with hend | hend
  · exact (h e he).1 hend
  · exact (h e he).2 hend

/-- The name of a file is what stands behind the last separator of its path. -/
theorem Path.baseName_append (directory : Text) {name : Text} (hne : name ≠ [])
    (hname : ∀ c ∈ name, c ≠ '/' ∧ c ≠ '\\') : baseName (directory ++ '/' :: name) = name := by
  have hkept : (name.map fun c => if c == '\\' then '/' else c) = name := by
    refine (List.map_congr_left fun c hc => ?_).trans (List.map_id name)
    rw [if_neg (by simpa using (hname c hc).2)]
    rfl
  have hlast : name.splitOn '/' = [name] :=
    Text.splitOn_of_not_mem fun hmem => (hname _ hmem).1 rfl
  unfold baseName
  rw [List.map_append, List.map_cons, hkept]
  simp only [beq_iff_eq, Char.reduceEq, if_false]
  rw [Text.splitOn_append_cons, hlast, List.getLast?_append, List.getLast?_singleton,
    Option.some_or, Option.getD_some]
  cases name with
  | nil => exact absurd rfl hne
  | cons c name => rfl

end SourceIndex
