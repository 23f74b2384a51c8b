import SourceIndex.Proofs.Repair
import Mathlib.Data.Bool.AllAny
import Mathlib.Logic.Function.Iterate

/-!
# Repairing a text again

An image that got a text is no image without one, and what commenting calls puts into a text makes no
new one. So the first pass finds nothing in a repaired text, unless an image had another one among its
attributes. The second pass does not tell a call in a comment from any other: every repair puts one
more mark in front of each call and reports it.
-/

namespace SourceIndex

namespace Repair

/-! ## Changes that make no images -/

/-- A relation between a text and a changed one that makes no images without a text: what stands in the
changed text, apart from the characters that are put in and from brackets that open, stood in the text,
and a text of an image stays in its line. -/
structure MakesNoImages (changes : Text → Text → Prop) : Prop where
  pull : ∀ {u v : Text} {c : Char}, c ∉ ['<', '/', ')'] → changes u (c :: v) →
    ∃ u', u = c :: u' ∧ changes u' v
  head?_closing : ∀ {u v : Text}, changes ('>' :: u) v → v.head? = some '>'
  mentions : ∀ {u v : Text}, changes u v → MentionsText u → MentionsText v
  closing_mem : ∀ {u v : Text}, changes u v → '>' ∈ v → '>' ∈ u

namespace MakesNoImages

variable {changes : Text → Text → Prop} (hchanges : MakesNoImages changes)
include hchanges

/-- A word of other characters was there before. -/
theorem pull_append {w : Text} (hw : ∀ c ∈ w, c ∉ ['<', '/', ')']) {u v : Text}
    (h : changes u (w ++ v)) : ∃ u', u = w ++ u' ∧ changes u' v := by
  induction w generalizing u with
  | nil => exact ⟨u, rfl, h⟩
  | cons c w ih =>
    obtain ⟨hc, hw⟩ := List.forall_mem_cons.mp hw
    obtain ⟨t, rfl, ht⟩ := hchanges.pull hc h
    obtain ⟨u', rfl, hu'⟩ := ih hw ht
    exact ⟨u', rfl, hu'⟩

theorem isSome_attributes? {u v : Text} (h : changes u v) (hv : (attributes? v).isSome = true) :
    (attributes? u).isSome = true := by
  rw [isSome_attributes?_iff] at hv ⊢
  obtain ⟨hline, hclosing, hhead⟩ := hv
  refine ⟨mt (hchanges.mentions h) hline, hchanges.closing_mem h hclosing, fun hfirst => hhead ?_⟩
  obtain ⟨u', rfl⟩ := List.head?_eq_some_iff.mp hfirst
  exact hchanges.head?_closing h

theorem isSome_attributesAfterBlanks? {u v : Text} (h : changes u v)
    (hv : (attributesAfterBlanks? v).isSome = true) : (attributesAfterBlanks? u).isSome = true := by
  induction v generalizing u with
  | nil => cases hv
  | cons c v ih =>
    rw [attributesAfterBlanks?] at hv
    split at hv
    · rename_i hc
      have hother : c ∉ ['<', '/', ')'] := fun hmem => by
        have hblank : ∀ d ∈ ['<', '/', ')'], isBlankChar d = false :=
          List.all_iff_forall_prop.mp (by decide)
        rw [hblank c hmem] at hc
        cases hc
      obtain ⟨u', rfl, h'⟩ := hchanges.pull hother h
      rw [attributesAfterBlanks?, if_pos hc, Option.isSome_or, Bool.or_eq_true]
      rw [Option.isSome_or, Bool.or_eq_true] at hv
      exact hv.imp (ih h') (hchanges.isSome_attributes? h')
    · cases hv

/-- Where no image without a text is read, none is read when what is behind the first character was
changed. -/
theorem imageWithoutText_cons {c : Char} {u v : Text} (h : changes u v)
    (hnone : imageWithoutText (c :: u) = none) : imageWithoutText (c :: v) = none := by
  refine Option.not_isSome_iff_eq_none.mp fun hsome => ?_
  obtain ⟨t, heq, hattributes⟩ := isSome_imageWithoutText_iff.mp hsome
  have htag : "<img".toList = '<' :: "img".toList := by decide
  rw [htag, List.cons_append] at heq
  obtain ⟨rfl, rfl⟩ := List.cons.inj heq
  obtain ⟨u', rfl, h'⟩ := hchanges.pull_append (List.all_iff_forall_prop.mp (by decide)) h
  have himage : (imageWithoutText ('<' :: ("img".toList ++ u'))).isSome = true :=
    isSome_imageWithoutText_iff.mpr ⟨u', by rw [htag]; rfl,
      hchanges.isSome_attributesAfterBlanks? h' hattributes⟩
  rw [hnone] at himage
  cases himage

end MakesNoImages

/-- A line whose first character stays mentions a text as before if the text at its start and those behind
its first character stay. -/
theorem mentions_cons {c : Char} {u v : Text} (h : MentionsText (c :: u))
    (hstart : "alt=".toList <+: c :: u → "alt=".toList <+: c :: v)
    (hlater : MentionsText u → MentionsText v) : MentionsText (c :: v) := by
  by_cases hc : c = '\n'
  · subst hc
    exact absurd (List.infix_nil.mp h) (by decide)
  · have hline : ∀ t : Text, (c :: t).takeWhile (· != '\n') = c :: t.takeWhile (· != '\n') :=
      fun t => List.takeWhile_cons_of_pos (bne_iff_ne.mpr hc)
    rw [MentionsText, hline, List.infix_cons_iff] at h
    rcases h with h | h
    · obtain ⟨t, ht⟩ := hstart (h.trans ((List.prefix_cons_inj c).mpr (List.takeWhile_prefix _)))
      rw [← ht]
      exact mentionsText_append (by decide) (List.infix_refl _) t
    · rw [MentionsText, hline]
      exact List.infix_cons (hlater h)

/-! ## Texts of images -/

theorem imageStart_eq : imageStart = '<' :: "img alt=\"\" ".toList := by
  decide

/-- Text that starts no image is kept when texts are added to images. -/
theorem addImageTexts_append {w : Text} (hw : '<' ∉ w) (s : Text) :
    addImageTexts (w ++ s) = w ++ addImageTexts s :=
  Pattern.replaceAll_append_of_none
    (Pattern.none_of_not_mem (fun _ => imageWithoutText_of_ne) hw s) imageWithText

/-- A line that mentions a text of an image still does when texts are added. -/
theorem mentions_addImageTexts (s : Text) (h : MentionsText s) : MentionsText (addImageTexts s) := by
  revert h
  refine Pattern.scan_induction consumes_imageWithoutText (motive := fun s =>
    MentionsText s → MentionsText (addImageTexts s)) id ?_ ?_ s
  · intro s a rest himage _ _
    rw [addImageTexts_of_find himage]
    exact mentionsText_append (by decide) (by decide) _
  · intro c s himage ih h
    rw [addImageTexts_of_none himage]
    refine mentions_cons h ?_ ih
    -- no image stands within the mention
    rintro ⟨t, ht⟩
    rw [← addImageTexts_of_none himage, ← ht, addImageTexts_append (by decide)]
    exact List.prefix_append _ _

/-- Adding texts to images closes no tag. -/
theorem closing_mem_of_addImageTexts (s : Text) (h : '>' ∈ addImageTexts s) : '>' ∈ s := by
  revert h
  refine Pattern.scan_induction consumes_imageWithoutText (motive := fun s =>
    '>' ∈ addImageTexts s → '>' ∈ s) id ?_ ?_ s
  · intro s a rest himage _ _
    obtain ⟨blanks, rfl, -⟩ := of_imageWithoutText_eq_some himage
    exact List.mem_append_right _ List.mem_cons_self
  · intro c s himage ih h
    rw [addImageTexts_of_none himage] at h
    exact List.mem_cons.mpr ((List.mem_cons.mp h).imp_right ih)

/-- Adding texts to images makes no images without a text. -/
theorem makesNoImages_addImageTexts : MakesNoImages fun u v => addImageTexts u = v where
  pull := by
    intro u v c hc h
    cases u with
    | nil => cases h
    | cons d u =>
      cases himage : imageWithoutText (d :: u) with
      | some find =>
        rw [addImageTexts_of_find himage, imageStart_eq] at h
        exact absurd (List.mem_cons.mpr (.inl (List.cons.inj h).1.symm)) hc
      | none =>
        rw [addImageTexts_of_none himage] at h
        obtain ⟨rfl, rfl⟩ := List.cons.inj h
        exact ⟨u, rfl, rfl⟩
  head?_closing := by
    rintro u v rfl
    rw [addImageTexts_of_none (imageWithoutText_of_ne (by decide) u)]
    rfl
  mentions := by
    rintro u v rfl
    exact mentions_addImageTexts u
  closing_mem := by
    rintro u v rfl
    exact closing_mem_of_addImageTexts u

/-- A text among attributes in which no tag of an image stands has no image without a text. -/
theorem occursIn_attributes_append {a : Text} (h : ¬ "<img".toList <:+: a) (s : Text) :
    imageWithoutText.occursIn (a ++ '>' :: s) = imageWithoutText.occursIn s := by
  have hnone : ∀ w, w <:+ a ++ ['>'] → w ≠ [] → imageWithoutText (w ++ s) = none := by
    intro w hw hne
    obtain ⟨v, rfl, hv⟩ := (List.suffix_concat_iff.mp hw).resolve_left hne
    -- the tag of an image would stand in front of the closing bracket
    refine Option.not_isSome_iff_eq_none.mp fun himage => h ?_
    obtain ⟨t, heq, -⟩ := isSome_imageWithoutText_iff.mp himage
    rw [List.append_assoc, List.singleton_append] at heq
    have hafter := Text.after?_self "<img".toList t
    rw [← heq, Text.after?_append_cons (by decide), Option.map_eq_some_iff] at hafter
    obtain ⟨more, hmore, -⟩ := hafter
    rw [Text.eq_append_of_after? hmore] at hv
    exact (List.prefix_append _ _).isInfix.trans hv.isInfix
  have happend := Pattern.occursIn_append_of_none hnone
  rwa [List.append_assoc, List.singleton_append] at happend

/-- When texts were added to images, none without a text is left, unless the tag of one stands among
the attributes of another. -/
theorem occursIn_addImageTexts {s : Text}
    (h : ∀ a ∈ imageWithoutText.findAll s, ¬ "<img".toList <:+: a) :
    imageWithoutText.occursIn (addImageTexts s) = false := by
  revert h
  refine Pattern.scan_induction consumes_imageWithoutText (motive := fun s =>
    (∀ a ∈ imageWithoutText.findAll s, ¬ "<img".toList <:+: a) →
      imageWithoutText.occursIn (addImageTexts s) = false) (fun _ => rfl) ?_ ?_ s
  · intro s a rest himage ih h
    rw [Pattern.findAll_of_find consumes_imageWithoutText himage, List.forall_mem_cons] at h
    have hstart := imageWithoutText_imageStart (a ++ '>' :: addImageTexts rest)
    rw [addImageTexts_of_find himage]
    rw [imageStart_eq, List.cons_append] at hstart ⊢
    rw [Pattern.occursIn_cons, hstart,
      Pattern.occursIn_append_of_none
        (Pattern.none_of_not_mem (fun _ => imageWithoutText_of_ne) (by decide) _),
      occursIn_attributes_append h.1]
    exact ih h.2
  · intro c s himage ih h
    rw [Pattern.findAll_of_none himage] at h
    rw [addImageTexts_of_none himage, Pattern.occursIn_cons,
      makesNoImages_addImageTexts.imageWithoutText_cons rfl himage]
    exact ih h

/-- An image whose tag stands among the attributes of another one still lacks a text. -/
example : imageWithoutText.findAll (addImageTexts "<img a <img b>".toList) = ["b".toList] := by
  decide +kernel

/-! ## Marks and semicolons -/

/-- The second text is the first one with marks in front of first letters of calls and with semicolons
behind parentheses that close. -/
inductive Annotated : Text → Text → Prop
  | nil : Annotated [] []
  | keep (c : Char) {u v : Text} (h : Annotated u v) : Annotated (c :: u) (c :: v)
  | mark {u v : Text} (h : Annotated ('c' :: u) v) : Annotated ('c' :: u) ('/' :: '/' :: ' ' :: v)
  | semicolon {u v : Text} (h : Annotated u v) : Annotated (')' :: u) (')' :: ';' :: v)

namespace Annotated

variable {u v : Text}

/-- A text stays in front of an annotated one. -/
theorem append (w : Text) (h : Annotated u v) : Annotated (w ++ u) (w ++ v) := by
  induction w with
  | nil => exact h
  | cons c w ih => exact .keep c ih

/-- Other characters than those of annotations were there before. -/
theorem mem_of_mem {c : Char} (hc : c ∉ ['/', ' ', ';']) (h : Annotated u v) (hv : c ∈ v) :
    c ∈ u := by
  simp only [List.mem_cons, List.not_mem_nil, or_false, not_or] at hc
  induction h with
  | nil => exact hv
  | keep d _ ih => exact List.mem_cons.mpr ((List.mem_cons.mp hv).imp_right ih)
  | mark _ ih =>
    simp only [List.mem_cons, hc, false_or] at hv
    exact ih hv
  | semicolon _ ih =>
    simp only [List.mem_cons, hc, false_or] at hv
    exact List.mem_cons.mpr (hv.imp_right ih)

/-- Characters that take no annotation stay at the start. -/
theorem push_append {w : Text} (hw : ∀ c ∈ w, c ∉ ['c', ')']) (h : Annotated (w ++ u) v) :
    ∃ v', v = w ++ v' ∧ Annotated u v' := by
  induction w generalizing v with
  | nil => exact ⟨v, rfl, h⟩
  | cons c w ih =>
    obtain ⟨hc, hw⟩ := List.forall_mem_cons.mp hw
    cases h with
    | keep _ h =>
      obtain ⟨v', rfl, h'⟩ := ih hw h
      exact ⟨v', rfl, h'⟩
    | mark => exact absurd List.mem_cons_self hc
    | semicolon => exact absurd (List.mem_cons_of_mem _ List.mem_cons_self) hc

/-- A line that mentions a text of an image still does with annotations. -/
theorem mentions (h : Annotated u v) (hu : MentionsText u) : MentionsText v := by
  induction h with
  | nil => exact hu
  | @keep c u v h ih =>
    refine mentions_cons hu ?_ ih
    -- no annotation stands within the mention
    rintro ⟨t, ht⟩
    obtain ⟨v', hv, -⟩ := push_append (List.all_iff_forall_prop.mp (by decide)) (ht ▸ keep c h)
    exact ⟨v', hv.symm⟩
  | mark h ih => exact List.infix_cons (List.infix_cons (List.infix_cons (ih hu)))
  | semicolon h ih =>
    refine mentions_cons hu ?_ fun h => List.infix_cons (ih h)
    rintro ⟨t, ht⟩
    exact absurd (List.cons.inj ht).1 (by decide)

end Annotated

/-- Annotations make no images without a text. -/
theorem makesNoImages_annotated : MakesNoImages Annotated where
  pull := by
    intro u v c hc h
    cases h with
    | @keep _ u' _ h => exact ⟨u', rfl, h⟩
    | mark => exact absurd (by decide) hc
    | semicolon => exact absurd (by decide) hc
  head?_closing := by
    intro u v h
    cases h
    rfl
  mentions h hu := h.mentions hu
  closing_mem h hv := h.mem_of_mem (by decide) hv

/-- Annotations leave no image without a text where there was none. -/
theorem Annotated.occursIn_imageWithoutText {u v : Text} (h : Annotated u v)
    (hu : imageWithoutText.occursIn u = false) : imageWithoutText.occursIn v = false := by
  induction h with
  | nil => exact hu
  | keep c h ih =>
    rw [Pattern.occursIn_cons, Bool.or_eq_false_iff] at hu ⊢
    have hnone := Option.isSome_eq_false_iff.mp hu.1
    rw [makesNoImages_annotated.imageWithoutText_cons h (Option.isNone_iff_eq_none.mp hnone)]
    exact ⟨rfl, ih hu.2⟩
  | @mark u v h ih =>
    rw [← ih hu]
    exact Pattern.occursIn_append_of_none (s := commentMark)
      (Pattern.none_of_not_mem (fun _ => imageWithoutText_of_ne) (by decide) v)
  | @semicolon u v h ih =>
    rw [Pattern.occursIn_cons, Bool.or_eq_false_iff] at hu
    rw [← ih hu.2]
    exact Pattern.occursIn_append_of_none (s := ");".toList)
      (Pattern.none_of_not_mem (fun _ => imageWithoutText_of_ne) (by decide) v)

/-! ## Calls with marks -/

/-- A number of marks. -/
def marks (n : Nat) : Text :=
  (List.replicate n commentMark).flatten

/-- A call with a number of marks in front of it. -/
def markedCall (n : Nat) (arguments : Text) : Text :=
  marks n ++ (callStart ++ (arguments ++ ");".toList))

/-- The text with a number of marks in front of every call. -/
def markCalls (n : Nat) (s : Text) : Text :=
  consoleCall.replaceAll (markedCall n) s

theorem marks_succ (n : Nat) : marks (n + 1) = commentMark ++ marks n := by
  rw [marks, List.replicate_succ, List.flatten_cons, marks]

theorem marks_append_commentMark (n : Nat) : marks n ++ commentMark = marks (n + 1) := by
  rw [marks, marks, List.replicate_succ', List.flatten_append, List.flatten_singleton]

/-- The comment of a call is the call behind one mark. -/
theorem commentConsoleCalls_eq (s : Text) : commentConsoleCalls s = markCalls 1 s := by
  have hcomment : consoleComment = markedCall 1 := funext fun arguments => consoleComment_eq arguments
  rw [commentConsoleCalls, hcomment, markCalls]

theorem markedCall_append (n : Nat) (arguments s : Text) :
    markedCall n arguments ++ s = marks n ++ (callStart ++ (arguments ++ ')' :: ';' :: s)) := by
  have hend : ");".toList = [')', ';'] := by decide
  simp only [markedCall, hend, List.append_assoc, List.cons_append, List.nil_append]

/-- Marks are no calls, whatever follows. -/
theorem consoleCall_marks (n : Nat) (s : Text) :
    ∀ w, w <:+ marks n → w ≠ [] → consoleCall (w ++ s) = none := by
  refine Pattern.none_of_not_mem (fun _ => consoleCall_of_ne) (fun hmem => ?_) s
  obtain ⟨mark, hmark, hmem⟩ := List.mem_flatten.mp hmem
  rw [List.eq_of_mem_replicate hmark] at hmem
  exact absurd hmem (by decide)

/-- A call with marks is a call behind them. -/
theorem consoleCall_markedCall {arguments : Text} (h : ')' ∉ arguments) (s : Text) :
    consoleCall (callStart ++ (arguments ++ ')' :: ';' :: s)) = some (arguments, s) :=
  consoleCall_append h (';' :: s)

theorem markCalls_of_find {s arguments rest : Text} (h : consoleCall s = some (arguments, rest))
    (n : Nat) : markCalls n s = markedCall n arguments ++ markCalls n rest :=
  Pattern.replaceAll_of_find consumes_consoleCall h _

theorem markCalls_of_none {c : Char} {s : Text} (h : consoleCall (c :: s) = none) (n : Nat) :
    markCalls n (c :: s) = c :: markCalls n s :=
  Pattern.replaceAll_of_none h _

/-- Marks are annotations in front of a call. -/
theorem Annotated.marks_append {u v : Text} (h : Annotated (callStart ++ u) v) (n : Nat) :
    Annotated (callStart ++ u) (marks n ++ v) := by
  induction n with
  | zero => exact h
  | succ n ih =>
    have hmark : commentMark = ['/', '/', ' '] := by decide
    rw [callStart_eq, List.cons_append] at ih ⊢
    rw [marks_succ, hmark, List.append_assoc]
    exact .mark ih

/-- Marking calls annotates a text. -/
theorem annotated_markCalls (n : Nat) (s : Text) : Annotated s (markCalls n s) := by
  refine Pattern.scan_induction consumes_consoleCall (motive := fun s => Annotated s (markCalls n s))
    .nil ?_ ?_ s
  · intro s arguments rest h ih
    rw [markCalls_of_find h, markedCall_append]
    obtain ⟨more, rfl, -, rfl⟩ := of_consoleCall_eq_some h
    refine Annotated.marks_append (.append callStart (.append arguments ?_)) n
    rcases dropSemicolon_eq more with hmore | hmore
    · rw [hmore]
      exact .keep ')' (.keep ';' ih)
    · rw [← hmore] at ih ⊢
      exact .semicolon ih
  · intro c s h ih
    rw [markCalls_of_none h]
    exact .keep c ih

/-- Where no call is read, none is read when the calls behind the first character get marks. -/
theorem consoleCall_cons_markCalls {c : Char} {s : Text} (h : consoleCall (c :: s) = none) (n : Nat) :
    consoleCall (c :: markCalls n s) = none := by
  refine Option.not_isSome_iff_eq_none.mp fun hsome => ?_
  obtain ⟨t, heq, hclosed⟩ := isSome_consoleCall_iff.mp hsome
  have hannotated := Annotated.keep c (annotated_markCalls n s)
  rw [heq] at hannotated
  obtain ⟨u, hu, h'⟩ := makesNoImages_annotated.pull_append (List.all_iff_forall_prop.mp (by decide)) hannotated
  have hcall := isSome_consoleCall_iff.mpr ⟨u, hu, h'.mem_of_mem (by decide) hclosed⟩
  rw [h] at hcall
  cases hcall

/-- Commenting calls that have marks puts one more mark in front of each. -/
theorem commentConsoleCalls_markCalls (n : Nat) (s : Text) :
    commentConsoleCalls (markCalls n s) = markCalls (n + 1) s := by
  refine Pattern.scan_induction consumes_consoleCall (motive := fun s =>
    commentConsoleCalls (markCalls n s) = markCalls (n + 1) s) rfl ?_ ?_ s
  · intro s arguments rest h ih
    obtain ⟨more, -, hopen, -⟩ := of_consoleCall_eq_some h
    calc commentConsoleCalls (markCalls n s)
        = commentConsoleCalls (marks n ++
            (callStart ++ (arguments ++ ')' :: ';' :: markCalls n rest))) := by
          rw [markCalls_of_find h, markedCall_append]
      _ = marks n ++ (consoleComment arguments ++ commentConsoleCalls (markCalls n rest)) := by
          rw [commentConsoleCalls, Pattern.replaceAll_append_of_none (consoleCall_marks n _),
            Pattern.replaceAll_of_find consumes_consoleCall (consoleCall_markedCall hopen _)]
          rfl
      _ = markedCall (n + 1) arguments ++ markCalls (n + 1) rest := by
          rw [ih, consoleComment_eq, markedCall, ← marks_append_commentMark]
          simp only [List.append_assoc]
      _ = markCalls (n + 1) s := (markCalls_of_find h _).symm
  · intro c s h ih
    rw [markCalls_of_none h, markCalls_of_none h, ← ih]
    exact Pattern.replaceAll_of_none (consoleCall_cons_markCalls h n) _

/-- Marks do not hide a call. -/
theorem findAll_markCalls (n : Nat) (s : Text) :
    consoleCall.findAll (markCalls n s) = consoleCall.findAll s := by
  refine Pattern.scan_induction consumes_consoleCall (motive := fun s =>
    consoleCall.findAll (markCalls n s) = consoleCall.findAll s) rfl ?_ ?_ s
  · intro s arguments rest h ih
    obtain ⟨more, -, hopen, -⟩ := of_consoleCall_eq_some h
    rw [markCalls_of_find h, markedCall_append,
      Pattern.findAll_append_of_none (consoleCall_marks n _),
      Pattern.findAll_of_find consumes_consoleCall (consoleCall_markedCall hopen _),
      Pattern.findAll_of_find consumes_consoleCall h, ih]
  · intro c s h ih
    rw [markCalls_of_none h, Pattern.findAll_of_none h,
      Pattern.findAll_of_none (consoleCall_cons_markCalls h n), ih]

/-- Marks neither make nor hide the start of a call. -/
theorem callStart_infix_markCalls_iff (n : Nat) (s : Text) :
    callStart <:+: markCalls n s ↔ callStart <:+: s := by
  refine Pattern.scan_induction consumes_consoleCall (motive := fun s =>
    callStart <:+: markCalls n s ↔ callStart <:+: s) Iff.rfl ?_ ?_ s
  · intro s arguments rest h _
    obtain ⟨more, rfl, -, -⟩ := of_consoleCall_eq_some h
    refine iff_of_true ?_ (List.prefix_append _ _).isInfix
    rw [markCalls_of_find h, markedCall_append]
    exact ⟨marks n, _, List.append_assoc _ _ _⟩
  · intro c s h ih
    rw [markCalls_of_none h, List.infix_cons_iff, List.infix_cons_iff, ih]
    refine or_congr_left ⟨?_, ?_⟩
    · rintro ⟨t, ht⟩
      obtain ⟨u, hu, -⟩ := makesNoImages_annotated.pull_append (w := callStart) (v := t)
        (List.all_iff_forall_prop.mp (by decide)) (ht ▸ Annotated.keep c (annotated_markCalls n s))
      exact ⟨u, hu.symm⟩
    · rintro ⟨u, hu⟩
      -- the first letter may get a mark, but here no call is read
      rw [callStart_eq, List.cons_append] at hu
      obtain ⟨rfl, rfl⟩ := List.cons.inj hu
      obtain ⟨v, hv, -⟩ := Annotated.push_append (w := "onsole.log(".toList)
        (List.all_iff_forall_prop.mp (by decide)) (annotated_markCalls n _)
      rw [hv, callStart_eq]
      exact List.prefix_append ('c' :: "onsole.log(".toList) v

end Repair

/-! ## Repairs of repaired texts -/

/-- Marks leave no image without a text where there was none. -/
theorem Repair.addImageTexts_markCalls {s : Text} (h : Repair.addImageTexts s = s) (n : Nat) :
    Repair.addImageTexts (Repair.markCalls n s) = Repair.markCalls n s :=
  addImageTexts_eq_self_iff.mpr
    ((annotated_markCalls n s).occursIn_imageWithoutText (addImageTexts_eq_self_iff.mp h))

/-- A repair of a text without images that lack a text, in which calls have marks, puts one more mark in
front of each. It reports comments if the text has the start of a call. -/
theorem repair_markCalls {s : Text} (h : Repair.addImageTexts s = s) (n : Nat) :
    repair (Repair.markCalls n s) =
      { text := Repair.markCalls (n + 1) s
        kinds := if s.contains Repair.callStart then [.consoleCalls] else [] } := by
  have himages := Repair.addImageTexts_markCalls h n
  have hnone := Repair.addImageTexts_eq_self_iff.mp himages
  have hstart : (Repair.markCalls n s).contains Repair.callStart = s.contains Repair.callStart := by
    rw [Bool.eq_iff_iff, Text.contains_iff, Text.contains_iff, Repair.callStart_infix_markCalls_iff]
  rw [repair_eq, himages, Repair.commentConsoleCalls_markCalls, hnone, hstart]
  rfl

/-- If the first repair left no image without a text, then a number of repairs puts that many marks in
front of each call. -/
theorem iterate_repair {s : Text}
    (h : Repair.addImageTexts (Repair.addImageTexts s) = Repair.addImageTexts s) (n : Nat) :
    (fun t => (repair t).text)^[n + 1] s = Repair.markCalls (n + 1) (Repair.addImageTexts s) := by
  induction n with
  | zero =>
    show (repair s).text = _
    rw [repair_eq, Repair.commentConsoleCalls_eq]
  | succ n ih =>
    rw [Function.iterate_succ_apply', ih]
    show (repair _).text = _
    rw [repair_markCalls h]

/-- Repairing a repaired text keeps it and reports nothing exactly if the text, with its images repaired,
has no start of a call and no image without a text. No image without a text is left unless the tag of an
image stands among the attributes of another one. Then any number of repairs puts that many marks in
front of each call, adds no texts to images, and reports comments as long as the text has the start of
a call; it ends only if there is no call. -/
theorem repair_repeated (s : Text) :
    let images := Repair.addImageTexts s
    let again := repair (repair s).text
    (again.text = (repair s).text ∧ again.kinds = [] ↔
      ¬ Repair.callStart <:+: images ∧ Repair.addImageTexts images = images) ∧
    ((∀ a ∈ Repair.imageWithoutText.findAll s, ¬ "<img".toList <:+: a) →
      Repair.addImageTexts images = images) ∧
    (Repair.addImageTexts images = images → ∀ n,
      let t := (fun t => (repair t).text)^[n + 1] s
      t = Repair.markCalls (n + 1) images ∧
      (repair t).text = Repair.markCalls (n + 2) images ∧
      (repair t).kinds = (if images.contains Repair.callStart then [.consoleCalls] else []) ∧
      ((repair t).text = t ↔ Repair.consoleCall.findAll images = [])) := by
  intro images again
  refine ⟨?_, fun h => Repair.addImageTexts_eq_self_iff.mpr (Repair.occursIn_addImageTexts h), ?_⟩
  · have hfirst : (repair s).text = Repair.commentConsoleCalls images := by rw [repair_eq]
    have hstart : Repair.callStart <:+: (repair s).text ↔ Repair.callStart <:+: images := by
      rw [hfirst, Repair.commentConsoleCalls_eq, Repair.callStart_infix_markCalls_iff]
    rw [and_iff_right_of_imp text_repair_of_kinds_eq_nil, kinds_repair_eq_nil_iff, hstart, and_comm]
    refine and_congr_right fun hnone => ?_
    rw [hfirst, Repair.commentConsoleCalls_of_not_infix hnone]
  · intro himages n t
    have ht : t = Repair.markCalls (n + 1) images := iterate_repair himages n
    have hrepair := repair_markCalls himages (n + 1)
    refine ⟨ht, by rw [ht, hrepair], by rw [ht, hrepair], ?_⟩
    rw [text_repair_eq_self_iff, ht, Repair.findAll_markCalls]
    exact and_iff_right (Repair.addImageTexts_markCalls himages (n + 1))

/-- A call in a comment is commented again, and reported. -/
theorem repair_of_commented_call :
    let s := "console.log(1);".toList
    (repair s).text = "// console.log(1);".toList ∧
      (repair (repair s).text).text = "// // console.log(1);".toList ∧
      (repair (repair s).text).kinds = [.consoleCalls] ∧
      ¬ ((repair (repair s).text).text = (repair s).text ∧ (repair (repair s).text).kinds = []) := by
  decide +kernel

end SourceIndex
