import SourceIndex.Proofs.BlockEnd
import SourceIndex.Proofs.Pattern
import Mathlib.Data.List.Forall2
import Mathlib.Data.List.TakeWhile

/-!
# Code, literals and comments of a line

A line whose literals and comments are complete is a list of segments: code, literals and block
comments, and perhaps a line comment at its end. `withoutLiterals` reads it from left to right, and each
segment is read whole, whatever quotes and marks of comments stand inside: a literal up to the quote that
closes it, a comment up to its mark, code character by character. So what is left is the code of the
line, and where a block ends does not depend on what its literals and comments say.
-/

namespace SourceIndex

/-! ## Segments -/

/-- The body of a literal consists of pairs of a backslash and a character, and of characters other than
the quote and the backslash. -/
inductive IsLiteralBody (quote : Char) : Text → Prop where
  | nil : IsLiteralBody quote []
  | escape (c : Char) {body : Text} (h : IsLiteralBody quote body) :
    IsLiteralBody quote ('\\' :: c :: body)
  | plain {c : Char} {body : Text} (hquote : c ≠ quote) (hescape : c ≠ '\\')
    (h : IsLiteralBody quote body) : IsLiteralBody quote (c :: body)

/-- A part of a line: code without literals and comments, a literal between two quotes, or a block
comment. -/
inductive Segment where
  | code (s : Text)
  | literal (quote : Char) (body : Text)
  | comment (body : Text)
  deriving DecidableEq, Repr

namespace Segment

/-- A segment as it stands in a line. -/
def text : Segment → Text
  | code s => s
  | literal quote body => quote :: (body ++ [quote])
  | comment body => '/' :: '*' :: (body ++ ['*', '/'])

/-- The code of a segment. -/
def kept : Segment → Text
  | code s => s
  | literal _ _ => []
  | comment _ => []

/-- A segment is well formed in a line that goes on with `rest`: code has no quotes, and no slash in it
has another slash or a star right behind it in the line; a literal has a body for its quote; the body of
a comment does not end the comment. -/
def FitsBefore (rest : Text) : Segment → Prop
  | code s => (∀ c ∈ s, isQuote c = false) ∧
      ∀ i (h : i < s.length), s[i] = '/' → ∀ c ∈ (s ++ rest)[i + 1]?, c ≠ '/' ∧ c ≠ '*'
  | literal quote body => isQuote quote = true ∧ IsLiteralBody quote body
  | comment body => ¬ ['*', '/'] <:+: body

/-- Segments are well formed where they stand: each in a line that goes on with those behind it and then
with `rest`. -/
def AllFitBefore (rest : Text) : List Segment → Prop
  | [] => True
  | seg :: behind => seg.FitsBefore (behind.flatMap text ++ rest) ∧ AllFitBefore rest behind

/-- Two segments differ in the body of a literal or of a comment at most. -/
inductive SameButBody : Segment → Segment → Prop where
  | code (s : Text) : SameButBody (code s) (code s)
  | literal (quote : Char) (body body' : Text) :
    SameButBody (literal quote body) (literal quote body')
  | comment (body body' : Text) : SameButBody (comment body) (comment body')

end Segment

/-- A line of segments, perhaps with a line comment at its end. -/
structure CodeLine where
  segments : List Segment
  comment : Option Text
  deriving DecidableEq, Repr

namespace CodeLine

/-- The end of a line: its line comment. -/
def ending (l : CodeLine) : Text :=
  match l.comment with
  | none => []
  | some s => '/' :: '/' :: s

/-- The text of a line. -/
def text (l : CodeLine) : Text :=
  l.segments.flatMap Segment.text ++ l.ending

/-- The code of a line. -/
def code (l : CodeLine) : Text :=
  l.segments.flatMap Segment.kept

/-- A line without newlines whose segments are well formed where they stand. -/
structure WellFormed (l : CodeLine) : Prop where
  newline_not_mem : '\n' ∉ l.text
  fits : Segment.AllFitBefore l.ending l.segments

/-- Two lines differ in the bodies of their literals and comments at most; a line comment may also be
missing in one of them. -/
def SameButBodies (l l' : CodeLine) : Prop :=
  List.Forall₂ Segment.SameButBody l.segments l'.segments

end CodeLine

/-! ## Reading segments -/

section Read

variable {rest : Text}

theorem ne_backslash_of_isQuote {c : Char} (h : isQuote c = true) : c ≠ '\\' := by
  rintro rfl
  exact absurd h (by decide)

theorem ne_slash_of_isQuote {c : Char} (h : isQuote c = true) : c ≠ '/' := by
  rintro rfl
  exact absurd h (by decide)

/-- A literal is read up to the quote behind its body. -/
theorem afterLiteral?_append {quote : Char} {body : Text} (hquote : quote ≠ '\\')
    (h : IsLiteralBody quote body) (hline : '\n' ∉ body) :
    afterLiteral? quote (body ++ quote :: rest) = some rest := by
  induction h with
  | nil =>
    rw [List.nil_append, afterLiteral?.eq_3 _ _ _ fun _ _ hc => absurd hc hquote,
      if_pos (beq_self_eq_true quote)]
  | escape c h ih =>
    simp only [List.mem_cons, not_or] at hline
    obtain ⟨-, hc, hbody⟩ := hline
    rw [List.cons_append, List.cons_append, afterLiteral?.eq_2, if_neg (by simpa using Ne.symm hc)]
    exact ih hbody
  | plain hother hescape h ih =>
    rw [List.mem_cons, not_or] at hline
    rw [List.cons_append, afterLiteral?.eq_3 _ _ _ fun _ _ hc => absurd hc hescape,
      if_neg (by simpa using hother), if_neg (by simpa using hescape)]
    exact ih hline.2

/-- A block comment is read up to the first mark that ends it. -/
theorem afterBlockComment?_append {body : Text} (h : ¬ ['*', '/'] <:+: body) (hline : '\n' ∉ body) :
    afterBlockComment? (body ++ '*' :: '/' :: rest) = some rest := by
  induction body with
  | nil => exact afterBlockComment?.eq_2 rest
  | cons c body ih =>
    rw [List.infix_cons_iff, not_or] at h
    rw [List.mem_cons, not_or] at hline
    -- the mark starts neither with the character in front of it nor before
    have hearly : ∀ s, c = '*' → body ++ '*' :: '/' :: rest = '/' :: s → False := by
      rintro s rfl hmark
      cases body with
      | nil => cases hmark
      | cons d body =>
        obtain ⟨rfl, -⟩ := List.cons.inj hmark
        exact h.1 ⟨body, rfl⟩
    rw [List.cons_append, afterBlockComment?.eq_3 _ _ hearly, if_neg (by simpa using Ne.symm hline.1)]
    exact ih h.2 hline.2

/-- A line comment is read up to the end of the line. -/
theorem afterLineComment?_eq_some {s : Text} (hline : '\n' ∉ s) : afterLineComment? s = some [] := by
  have hnil : s.dropWhile (· != '\n') = [] :=
    List.dropWhile_eq_nil_iff.mpr fun c hc => bne_iff_ne.mpr fun heq => hline (heq ▸ hc)
  rw [afterLineComment?, hnil]

/-- No literal or comment starts at a character of code. -/
theorem literalOrComment_eq_none {c : Char} {s : Text} (hquote : isQuote c = false)
    (hslash : c = '/' → ∀ d ∈ s.head?, d ≠ '/' ∧ d ≠ '*') : literalOrComment (c :: s) = none := by
  have hstar : ∀ r, c = '/' → s = '*' :: r → False := by
    rintro r hc rfl
    exact (hslash hc '*' rfl).2 rfl
  have hother : ∀ r, c = '/' → s = '/' :: r → False := by
    rintro r hc rfl
    exact (hslash hc '/' rfl).1 rfl
  rw [literalOrComment.eq_3 _ _ hstar hother, hquote, if_neg Bool.false_ne_true]

namespace Segment

@[simp]
theorem fitsBefore_code_nil : (code []).FitsBefore rest := by
  constructor
  · rintro c ⟨⟩
  · rintro i ⟨⟩

/-- Code is well formed character by character. -/
@[simp]
theorem fitsBefore_code_cons {c : Char} {s : Text} : (code (c :: s)).FitsBefore rest ↔
    isQuote c = false ∧ (c = '/' → ∀ d ∈ (s ++ rest).head?, d ≠ '/' ∧ d ≠ '*') ∧
      (code s).FitsBefore rest := by
  constructor
  · rintro ⟨hquote, hslash⟩
    refine ⟨hquote c List.mem_cons_self, fun hc => ?_, fun d hd => hquote d (List.mem_cons_of_mem c hd),
      fun i hi => hslash (i + 1) (Nat.succ_lt_succ hi)⟩
    rw [List.head?_eq_getElem?]
    exact hslash 0 (Nat.succ_pos _) hc
  · rintro ⟨hc, hfirst, hquote, hslash⟩
    refine ⟨List.forall_mem_cons.mpr ⟨hc, hquote⟩, fun i hi => ?_⟩
    cases i with
    | zero =>
      rw [List.head?_eq_getElem?] at hfirst
      exact hfirst
    | succ i => exact hslash i (Nat.lt_of_succ_lt_succ hi)

end Segment

/-- Code is kept as it is. -/
theorem withoutLiterals_code {s : Text} (h : (Segment.code s).FitsBefore rest) :
    withoutLiterals (s ++ rest) = s ++ withoutLiterals rest := by
  induction s with
  | nil => rfl
  | cons c s ih =>
    obtain ⟨hquote, hslash, hbehind⟩ := Segment.fitsBefore_code_cons.mp h
    have hnone : literalOrComment (c :: (s ++ rest)) = none := literalOrComment_eq_none hquote hslash
    rw [List.cons_append, withoutLiterals, Pattern.eraseAll_of_none hnone, List.cons_append,
      ← ih hbehind]
    rfl

/-- A literal or a comment at the start of a text is erased. -/
theorem withoutLiterals_of_some {c : Char} {s : Text}
    (h : literalOrComment (c :: s) = some ((), rest)) (hrest : rest <:+ s) :
    withoutLiterals (c :: s) = withoutLiterals rest :=
  Pattern.eraseAll_of_some h hrest

/-- Of a segment at the start of a text the code is kept. -/
theorem withoutLiterals_segment {seg : Segment} (h : seg.FitsBefore rest) (hline : '\n' ∉ seg.text) :
    withoutLiterals (seg.text ++ rest) = seg.kept ++ withoutLiterals rest := by
  cases seg with
  | code s => exact withoutLiterals_code h
  | literal quote body =>
    obtain ⟨hquote, hbody⟩ := h
    have hread : afterLiteral? quote (body ++ quote :: rest) = some rest :=
      afterLiteral?_append (ne_backslash_of_isQuote hquote) hbody
        fun hc => hline (List.mem_cons_of_mem _ (List.mem_append_left _ hc))
    have hslash : quote ≠ '/' := ne_slash_of_isQuote hquote
    have htext : (Segment.literal quote body).text ++ rest = quote :: (body ++ quote :: rest) := by
      simp [Segment.text]
    rw [htext]
    refine withoutLiterals_of_some ?_ ⟨body ++ [quote], by simp⟩
    rw [literalOrComment.eq_3 _ _ (fun _ hc => absurd hc hslash) (fun _ hc => absurd hc hslash),
      if_pos hquote, hread]
    rfl
  | comment body =>
    have hread : afterBlockComment? (body ++ '*' :: '/' :: rest) = some rest :=
      afterBlockComment?_append h fun hc => hline
        (List.mem_cons_of_mem _ (List.mem_cons_of_mem _ (List.mem_append_left _ hc)))
    have htext : (Segment.comment body).text ++ rest = '/' :: '*' :: (body ++ '*' :: '/' :: rest) := by
      simp [Segment.text]
    rw [htext]
    refine withoutLiterals_of_some ?_ ⟨'*' :: (body ++ ['*', '/']), by simp⟩
    rw [literalOrComment.eq_1, hread]
    rfl

end Read

/-! ## Lines and blocks -/

namespace CodeLine

/-- A line comment leaves nothing of the end of its line. -/
theorem withoutLiterals_ending {l : CodeLine} (hline : '\n' ∉ l.ending) :
    withoutLiterals l.ending = [] := by
  unfold ending at hline ⊢
  split at hline
  · rfl
  · rename_i s
    simp only [List.mem_cons, not_or] at hline
    refine (withoutLiterals_of_some ?_ (List.nil_suffix)).trans rfl
    rw [literalOrComment.eq_2, afterLineComment?_eq_some hline.2.2]
    rfl

/-- Segments before the end of a line leave their code. -/
theorem withoutLiterals_segments {segments : List Segment} {rest : Text}
    (hline : '\n' ∉ segments.flatMap Segment.text) (h : Segment.AllFitBefore rest segments) :
    withoutLiterals (segments.flatMap Segment.text ++ rest) =
      segments.flatMap Segment.kept ++ withoutLiterals rest := by
  induction segments with
  | nil => rfl
  | cons seg behind ih =>
    obtain ⟨hseg, hbehind⟩ := h
    rw [List.flatMap_cons, List.mem_append, not_or] at hline
    rw [List.flatMap_cons, List.append_assoc, withoutLiterals_segment hseg hline.1,
      ih hline.2 hbehind, List.flatMap_cons, List.append_assoc]

/-- What is left of a well-formed line is its code. -/
theorem WellFormed.withoutLiterals_text {l : CodeLine} (h : l.WellFormed) :
    withoutLiterals l.text = l.code := by
  have hline := h.newline_not_mem
  rw [text, List.mem_append, not_or] at hline
  rw [text, withoutLiterals_segments hline.1 h.fits, withoutLiterals_ending hline.2, List.append_nil,
    code]

/-- Well-formed lines leave their code. -/
theorem map_withoutLiterals {ls : List CodeLine} (h : ∀ l ∈ ls, l.WellFormed) :
    (ls.map text).map withoutLiterals = ls.map code := by
  rw [List.map_map]
  exact List.map_congr_left fun l hl => (h l hl).withoutLiterals_text

/-- Segments that differ in the bodies of literals and comments at most have the same code. -/
theorem flatMap_kept_eq {segments segments' : List Segment}
    (h : List.Forall₂ Segment.SameButBody segments segments') :
    segments.flatMap Segment.kept = segments'.flatMap Segment.kept := by
  induction h with
  | nil => rfl
  | cons hseg _ ih =>
    rw [List.flatMap_cons, List.flatMap_cons, ih]
    cases hseg <;> rfl

/-- Lines that differ in the bodies of literals and comments at most have the same code. -/
theorem map_code_eq {ls ls' : List CodeLine} (h : List.Forall₂ SameButBodies ls ls') :
    ls.map code = ls'.map code := by
  induction h with
  | nil => rfl
  | cons hline _ ih =>
    rw [List.map_cons, List.map_cons, ih]
    exact congrArg (· :: _) (flatMap_kept_eq hline)

end CodeLine

/-- The scan for the end of a block sees the code of lines only. -/
theorem reachFrom?_congr {d : BracketDepth} {ls ls' : List Text}
    (h : ls.map withoutLiterals = ls'.map withoutLiterals) : reachFrom? d ls = reachFrom? d ls' := by
  induction ls generalizing d ls' with
  | nil => rw [List.map_eq_nil_iff.mp h.symm]
  | cons line rest ih =>
    obtain ⟨line', rest', rfl, hline, hrest⟩ := List.map_eq_cons_iff.mp h.symm
    rw [reachFrom?, reachFrom?, hline, ih hrest.symm]

/-- Where a block ends depends on the code of its lines only. -/
theorem blockEnd_congr {ls ls' : List Text} (h : ls.map withoutLiterals = ls'.map withoutLiterals)
    (start : Nat) : blockEnd ls start = blockEnd ls' start := by
  have hlength : ls.length = ls'.length := by simpa using congrArg List.length h
  have hdrop : (ls.drop start).map withoutLiterals = (ls'.drop start).map withoutLiterals := by
    rw [List.map_drop, List.map_drop, h]
  rw [blockEnd, blockEnd, blockReach, blockReach, reachFrom?_congr hdrop, List.length_drop,
    List.length_drop, hlength]

/-- What is left of a well-formed line without its literals and comments is its code. So a block ends at
the same line whatever the literals and comments of its lines say. -/
theorem withoutLiterals_eq_code :
    (∀ l : CodeLine, l.WellFormed → withoutLiterals l.text = l.code) ∧
    ∀ ls ls' : List CodeLine, (∀ l ∈ ls, l.WellFormed) → (∀ l ∈ ls', l.WellFormed) →
      List.Forall₂ CodeLine.SameButBodies ls ls' →
        ∀ start, blockEnd (ls.map CodeLine.text) start = blockEnd (ls'.map CodeLine.text) start := by
  refine ⟨fun l h => h.withoutLiterals_text, fun ls ls' hls hls' hsame start => ?_⟩
  refine blockEnd_congr ?_ start
  rw [CodeLine.map_withoutLiterals hls, CodeLine.map_withoutLiterals hls',
    CodeLine.map_code_eq hsame]

/-- A call whose literal has an escaped quote, a quote of another kind and a mark of a comment, with a
comment that has a quote, a division and a line comment, and the same call without what these say. -/
theorem withoutLiterals_eq_code_of_call :
    let l : CodeLine := ⟨[.code ['f', '('], .literal '\'' ['\\', '\'', '"', '/', '/'], .code [','],
      .comment ['\'', '/', '*', '\x7b'], .code ['x', '/', '2', ')', ';']], some ['\x7d', '"']⟩
    let l' : CodeLine := ⟨[.code ['f', '('], .literal '\'' [], .code [','], .comment [],
      .code ['x', '/', '2', ')', ';']], some []⟩
    l.WellFormed ∧ l'.WellFormed ∧ l.SameButBodies l' ∧
      withoutLiterals l.text = "f(,x/2);".toList ∧
      blockEnd [l.text, l'.text] 0 = blockEnd [l'.text, l.text] 0 := by
  intro l l'
  have hmark : ∀ body : Text, body ∈ [['\'', '/', '*', '\x7b'], []] → ¬ ['*', '/'] <:+: body := by
    decide
  have hl : l.WellFormed :=
    ⟨by decide, by simp [isQuote],
      ⟨rfl, .escape _ (.plain (by decide) (by decide) (.plain (by decide) (by decide)
        (.plain (by decide) (by decide) .nil)))⟩,
      by simp [isQuote], hmark _ (by decide), by simp [isQuote], trivial⟩
  have hl' : l'.WellFormed :=
    ⟨by decide, by simp [isQuote], ⟨rfl, .nil⟩, by simp [isQuote], hmark _ (by decide),
      by simp [isQuote], trivial⟩
  have hsame : l.SameButBodies l' :=
    .cons (.code _) (.cons (.literal _ _ _) (.cons (.code _) (.cons (.comment _ _)
      (.cons (.code _) .nil))))
  have hsame' : l'.SameButBodies l :=
    .cons (.code _) (.cons (.literal _ _ _) (.cons (.code _) (.cons (.comment _ _)
      (.cons (.code _) .nil))))
  obtain ⟨hcode, hblock⟩ := withoutLiterals_eq_code
  refine ⟨hl, hl', hsame, hcode l hl, ?_⟩
  exact hblock [l, l'] [l', l] (by simp [hl, hl']) (by simp [hl, hl'])
    (.cons hsame (.cons hsame' .nil)) 0

end SourceIndex
