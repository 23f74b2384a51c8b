import SourceIndex.Repair
import SourceIndex.Proofs.Reading

/-!
# What a repair reports

Both passes of a repair change a text exactly if they find something in it, and the second does not
undo the first. The report of the images agrees with the change. The report of the calls does not: it
says that calls became comments as soon as the text has the start of one, also if none of them is
closed and nothing was changed.
-/

namespace SourceIndex

/-- A text has two parts around a character, the first without the character. -/
theorem Text.span_ne_append_cons {c : Char} {a : Text} (h : c ∉ a) (rest : Text) :
    (a ++ c :: rest).span (· != c) = (a, c :: rest) :=
  span_append_boundary (fun d hd => bne_iff_ne.mpr fun heq => h (heq ▸ hd))
    (forall_mem_head?_cons (by simp) rest)

namespace Repair

/-! ## Images without a text -/

/-- The first line of a text mentions the text of an image. -/
def MentionsText (s : Text) : Prop :=
  "alt=".toList <:+: s.takeWhile (· != '\n')

/-- What mentions a text within a line still does in front of another text. -/
theorem mentionsText_append {w : Text} (hw : '\n' ∉ w) (h : "alt=".toList <:+: w) (s : Text) :
    MentionsText (w ++ s) := by
  have hline : ∀ c ∈ w, (c != '\n') = true := fun c hc => bne_iff_ne.mpr fun heq => hw (heq ▸ hc)
  rw [MentionsText, List.takeWhile_append_of_pos hline]
  exact h.trans (List.prefix_append _ _).isInfix

/-- What is read as attributes is closed, does not stand in a line that mentions a text, and is not
empty. -/
theorem of_attributes?_eq_some {s a rest : Text} (h : attributes? s = some (a, rest)) :
    s = a ++ '>' :: rest ∧ a ≠ [] ∧ '>' ∉ a ∧ ¬ MentionsText s := by
  rw [attributes?] at h
  split at h
  · cases h
  · rename_i halt
    rw [Text.contains_iff] at halt
    split at h
    · rename_i c attributes more hspan
      cases h
      rw [List.span_eq_takeWhile_dropWhile, Prod.mk.injEq] at hspan
      obtain ⟨htake, hdrop⟩ := hspan
      refine ⟨?_, List.cons_ne_nil _ _, fun hclosing => ?_, halt⟩
      · rw [← htake, ← hdrop, List.takeWhile_append_dropWhile]
      · rw [← htake] at hclosing
        have hother := List.mem_takeWhile_imp hclosing
        simp at hother
    · cases h

/-- Attributes are read where they are closed, in a line that mentions no text, unless there are
none. -/
theorem isSome_attributes?_iff {s : Text} :
    (attributes? s).isSome = true ↔ ¬ MentionsText s ∧ '>' ∈ s ∧ s.head? ≠ some '>' := by
  constructor
  · intro h
    obtain ⟨⟨a, rest⟩, hread⟩ := Option.isSome_iff_exists.mp h
    obtain ⟨rfl, hne, hclosing, halt⟩ := of_attributes?_eq_some hread
    obtain ⟨c, a, rfl⟩ := List.exists_cons_of_ne_nil hne
    refine ⟨halt, List.mem_append_right _ List.mem_cons_self, fun hhead => ?_⟩
    exact hclosing (Option.some.inj hhead ▸ List.mem_cons_self)
  · rintro ⟨halt, hclosing, hhead⟩
    obtain ⟨a, rest, rfl, hfirst⟩ := List.eq_append_cons_of_mem hclosing
    cases a with
    | nil => exact absurd rfl hhead
    | cons c a =>
      rw [attributes?, if_neg (mt Text.contains_iff.mp halt), Text.span_ne_append_cons hfirst]
      rfl

/-- The attributes behind blanks are attributes behind all or some of the blanks. -/
theorem of_attributesAfterBlanks?_eq_some {s a rest : Text}
    (h : attributesAfterBlanks? s = some (a, rest)) :
    ∃ blanks t : Text, blanks ≠ [] ∧ blanks.isBlank = true ∧ s = blanks ++ t ∧
      attributes? t = some (a, rest) := by
  induction s with
  | nil => cases h
  | cons c s ih =>
    rw [attributesAfterBlanks?] at h
    split at h
    · rename_i hc
      rcases Option.or_eq_some_iff.mp h with h | ⟨-, h⟩
      · obtain ⟨blanks, t, -, hblanks, rfl, ht⟩ := ih h
        exact ⟨c :: blanks, t, List.cons_ne_nil _ _, Bool.and_eq_true_iff.mpr ⟨hc, hblanks⟩, rfl, ht⟩
      · exact ⟨[c], s, List.cons_ne_nil _ _, Bool.and_eq_true_iff.mpr ⟨hc, rfl⟩, rfl, h⟩
    · cases h

/-- An image without a text is its tag: blanks and attributes up to the first closing bracket. -/
theorem of_imageWithoutText_eq_some {s a rest : Text} (h : imageWithoutText s = some (a, rest)) :
    ∃ blanks, s = "<img".toList ++ blanks ++ a ++ '>' :: rest ∧ '>' ∉ a := by
  simp only [imageWithoutText, Option.bind_eq_bind, Option.bind_eq_some_iff] at h
  obtain ⟨t, htag, h⟩ := h
  obtain ⟨blanks, u, -, -, rfl, hread⟩ := of_attributesAfterBlanks?_eq_some h
  obtain ⟨rfl, -, hclosing, -⟩ := of_attributes?_eq_some hread
  refine ⟨blanks, ?_, hclosing⟩
  rw [Text.eq_append_of_after? htag, List.append_assoc, List.append_assoc]

/-- An image without a text is read where its tag goes on with blanks and attributes. -/
theorem isSome_imageWithoutText_iff {s : Text} :
    (imageWithoutText s).isSome = true ↔
      ∃ t, s = "<img".toList ++ t ∧ (attributesAfterBlanks? t).isSome = true := by
  constructor
  · intro h
    obtain ⟨find, hread⟩ := Option.isSome_iff_exists.mp h
    obtain ⟨t, htag, hattributes⟩ := Option.bind_eq_some_iff.mp hread
    exact ⟨t, Text.eq_append_of_after? htag, Option.isSome_iff_exists.mpr ⟨find, hattributes⟩⟩
  · rintro ⟨t, rfl, h⟩
    unfold imageWithoutText
    rwa [Text.after?_self]

theorem consumes_imageWithoutText : imageWithoutText.Consumes := by
  intro s a rest h
  obtain ⟨blanks, rfl, -⟩ := of_imageWithoutText_eq_some h
  exact ⟨"<img".toList ++ blanks ++ a ++ ['>'], by simp, by simp⟩

/-- Only an opening bracket starts an image. -/
theorem imageWithoutText_of_ne {c : Char} (hc : c ≠ '<') (s : Text) :
    imageWithoutText (c :: s) = none := by
  cases h : imageWithoutText (c :: s) with
  | none => rfl
  | some find =>
    obtain ⟨blanks, heq, -⟩ := of_imageWithoutText_eq_some h
    exact absurd (List.cons.inj heq).1 hc

/-- The start of an image with an empty text. -/
def imageStart : Text :=
  "<img alt=\"\" ".toList

theorem imageWithText_eq (attributes : Text) :
    imageWithText attributes = imageStart ++ (attributes ++ ['>']) :=
  List.append_assoc _ _ _

/-- A tag that starts with its text is no image without one. -/
theorem imageWithoutText_imageStart (s : Text) : imageWithoutText (imageStart ++ s) = none := by
  have hline : MentionsText ("alt=\"\" ".toList ++ s) := mentionsText_append (by decide) (by decide) s
  have hattributes : attributes? ("alt=\"\" ".toList ++ s) = none := by
    rw [attributes?, if_pos (Text.contains_iff.mpr hline)]
  have hblanks : attributesAfterBlanks? (' ' :: ("alt=\"\" ".toList ++ s)) = none := by
    rw [attributesAfterBlanks?, hattributes]
    rfl
  have hstart : imageStart = "<img".toList ++ ' ' :: "alt=\"\" ".toList := by decide
  rw [hstart, List.append_assoc, List.cons_append, imageWithoutText, Text.after?_self]
  exact hblanks

/-- The attributes of an image do not start with a text. -/
theorem not_prefix_imageStart {s a rest : Text} (h : imageWithoutText s = some (a, rest)) :
    ¬ imageStart <+: s := by
  rintro ⟨t, rfl⟩
  rw [imageWithoutText_imageStart] at h
  cases h

theorem addImageTexts_of_find {s a rest : Text} (h : imageWithoutText s = some (a, rest)) :
    addImageTexts s = imageStart ++ (a ++ '>' :: addImageTexts rest) := by
  rw [addImageTexts, Pattern.replaceAll_of_find consumes_imageWithoutText h, imageWithText_eq,
    List.append_assoc, List.append_assoc]
  rfl

theorem addImageTexts_of_none {c : Char} {s : Text} (h : imageWithoutText (c :: s) = none) :
    addImageTexts (c :: s) = c :: addImageTexts s :=
  Pattern.replaceAll_of_none h _

/-- Adding texts to images keeps exactly the texts without images that lack one. -/
theorem addImageTexts_eq_self_iff {s : Text} :
    addImageTexts s = s ↔ imageWithoutText.occursIn s = false := by
  refine Pattern.replaceAll_eq_self_iff consumes_imageWithoutText fun t a rest h hprefix => ?_
  rw [imageWithText_eq] at hprefix
  exact not_prefix_imageStart h ((List.prefix_append _ _).trans hprefix)

/-! ## Console calls -/

/-- The start of a console call. -/
def callStart : Text :=
  "console.log(".toList

/-- The text without the semicolon that it starts with, if it does. -/
def dropSemicolon : Text → Text
  | ';' :: s => s
  | s => s

/-- What is left of a text is all of it or what is behind a semicolon. -/
theorem dropSemicolon_eq (s : Text) : s = ';' :: dropSemicolon s ∨ s = dropSemicolon s := by
  unfold dropSemicolon
  split
  · exact .inl rfl
  · exact .inr rfl

/-- A call is read up to the first closing parenthesis, with the semicolon behind it. -/
theorem consoleCall_append {arguments : Text} (h : ')' ∉ arguments) (rest : Text) :
    consoleCall (callStart ++ (arguments ++ ')' :: rest)) = some (arguments, dropSemicolon rest) := by
  unfold consoleCall callStart dropSemicolon
  rw [Text.after?_self, Option.bind_eq_bind, Option.bind_some, Text.span_ne_append_cons h]
  cases rest with
  | nil => rfl
  | cons c rest =>
    by_cases hc : c = ';'
    · subst hc
      rfl
    · simp [hc]

/-- A call that is not closed is not read. -/
theorem consoleCall_of_not_mem {t : Text} (h : ')' ∉ t) : consoleCall (callStart ++ t) = none := by
  have hspan : (t ++ []).span (· != ')') = (t, []) :=
    Text.span_append_boundary (fun c hc => bne_iff_ne.mpr fun heq => h (heq ▸ hc)) nofun
  rw [List.append_nil] at hspan
  unfold consoleCall callStart
  rw [Text.after?_self, Option.bind_eq_bind, Option.bind_some, hspan]

/-- A call is read only behind its start, and only if it is closed. -/
theorem of_consoleCall_eq_some {s arguments rest : Text}
    (h : consoleCall s = some (arguments, rest)) :
    ∃ more, s = callStart ++ (arguments ++ ')' :: more) ∧ ')' ∉ arguments ∧
      rest = dropSemicolon more := by
  obtain ⟨t, hstart, -⟩ := Option.bind_eq_some_iff.mp h
  obtain rfl : s = callStart ++ t := Text.eq_append_of_after? hstart
  have hclosed : ')' ∈ t := by
    by_contra hopen
    rw [consoleCall_of_not_mem hopen] at h
    cases h
  obtain ⟨arguments', more, rfl, hfirst⟩ := List.eq_append_cons_of_mem hclosed
  rw [consoleCall_append hfirst] at h
  obtain ⟨rfl, rfl⟩ := Prod.mk.inj (Option.some.inj h)
  exact ⟨more, rfl, hfirst, rfl⟩

/-- A call is read exactly where its start is closed. -/
theorem isSome_consoleCall_iff {s : Text} :
    (consoleCall s).isSome = true ↔ ∃ t, s = callStart ++ t ∧ ')' ∈ t := by
  constructor
  · intro h
    obtain ⟨⟨arguments, rest⟩, hread⟩ := Option.isSome_iff_exists.mp h
    obtain ⟨more, rfl, -, -⟩ := of_consoleCall_eq_some hread
    exact ⟨_, rfl, List.mem_append_right _ List.mem_cons_self⟩
  · rintro ⟨t, rfl, hclosed⟩
    obtain ⟨arguments, more, rfl, hfirst⟩ := List.eq_append_cons_of_mem hclosed
    rw [consoleCall_append hfirst]
    rfl

theorem consumes_consoleCall : consoleCall.Consumes := by
  intro s arguments rest h
  obtain ⟨more, rfl, -, rfl⟩ := of_consoleCall_eq_some h
  obtain ⟨read, hread⟩ : ∃ read, read ++ dropSemicolon more = more :=
    (dropSemicolon_eq more).elim (fun h => ⟨[';'], h.symm⟩) fun h => ⟨[], h.symm⟩
  refine ⟨callStart ++ (arguments ++ ')' :: read), by simp, ?_⟩
  rw [List.append_assoc, List.append_assoc, List.cons_append, hread]

theorem callStart_eq : callStart = 'c' :: "onsole.log(".toList := by
  decide

/-- A call starts with its first letter. -/
theorem head?_of_consoleCall {s arguments rest : Text} (h : consoleCall s = some (arguments, rest)) :
    s.head? = some 'c' := by
  obtain ⟨more, rfl, -⟩ := of_consoleCall_eq_some h
  rw [callStart_eq]
  rfl

theorem consoleCall_of_ne {c : Char} (hc : c ≠ 'c') (s : Text) : consoleCall (c :: s) = none :=
  Option.eq_none_iff_forall_ne_some.mpr fun _ h => hc (Option.some.inj (head?_of_consoleCall h))

/-- What stands in front of a call in a comment. -/
def commentMark : Text :=
  "// ".toList

theorem consoleComment_eq (arguments : Text) :
    consoleComment arguments = commentMark ++ (callStart ++ (arguments ++ ");".toList)) := by
  have hstart : "// console.log(".toList = commentMark ++ callStart := by decide
  unfold consoleComment
  rw [hstart, List.append_assoc, List.append_assoc]

/-- A comment starts with a slash. -/
theorem head?_of_prefix_consoleComment {s arguments : Text} (h : consoleComment arguments <+: s) :
    s.head? = some '/' := by
  obtain ⟨t, rfl⟩ := h
  have hslash : commentMark = '/' :: "/ ".toList := by decide
  rw [consoleComment_eq, hslash]
  rfl

/-- Commenting calls keeps exactly the texts without calls. -/
theorem commentConsoleCalls_eq_self_iff {s : Text} :
    commentConsoleCalls s = s ↔ consoleCall.occursIn s = false :=
  Pattern.replaceAll_eq_self_iff consumes_consoleCall fun _ _ _ hcall hcomment =>
    absurd ((head?_of_consoleCall hcall).symm.trans (head?_of_prefix_consoleComment hcomment))
      (by decide)

/-- A text has a call exactly if it has the start of one that is closed somewhere behind it. -/
theorem occursIn_consoleCall_iff {s : Text} :
    consoleCall.occursIn s = true ↔
      ∃ before after, s = before ++ (callStart ++ after) ∧ ')' ∈ after := by
  rw [Pattern.occursIn_iff_exists_suffix]
  constructor
  · rintro ⟨t, ⟨before, rfl⟩, -, h⟩
    obtain ⟨after, rfl, hclosed⟩ := isSome_consoleCall_iff.mp h
    exact ⟨before, after, rfl, hclosed⟩
  · rintro ⟨before, after, rfl, hclosed⟩
    exact ⟨_, List.suffix_append _ _, by simp [callStart_eq],
      isSome_consoleCall_iff.mpr ⟨after, rfl, hclosed⟩⟩

/-- Commenting calls keeps a text without the start of one. -/
theorem commentConsoleCalls_of_not_infix {s : Text} (h : ¬ callStart <:+: s) :
    commentConsoleCalls s = s := by
  refine commentConsoleCalls_eq_self_iff.mpr (Bool.eq_false_iff.mpr fun hcall => h ?_)
  obtain ⟨before, after, heq, -⟩ := occursIn_consoleCall_iff.mp hcall
  exact ⟨before, after, by rw [heq, List.append_assoc]⟩

/-! ## Both passes -/

/-- Commenting calls does not undo the texts that were added to images. -/
theorem addImageTexts_eq_self_of_comment {s : Text}
    (h : commentConsoleCalls (addImageTexts s) = s) : addImageTexts s = s := by
  induction s with
  | nil => rfl
  | cons c s ih =>
    cases himage : imageWithoutText (c :: s) with
    | some find =>
      -- the text would start with the image that has its text
      obtain ⟨a, rest⟩ := find
      refine absurd ?_ (not_prefix_imageStart himage)
      rw [← h, addImageTexts_of_find himage, commentConsoleCalls,
        Pattern.replaceAll_append_of_none
          (Pattern.none_of_not_mem (fun _ => consoleCall_of_ne) (by decide) _)]
      exact List.prefix_append _ _
    | none =>
      rw [addImageTexts_of_none himage] at h ⊢
      cases hcall : consoleCall (c :: addImageTexts s) with
      | some find =>
        -- the text would start with a comment where it has the first letter of a call
        obtain ⟨arguments, rest⟩ := find
        have hcomment : consoleComment arguments <+: c :: s := by
          rw [← h, commentConsoleCalls, Pattern.replaceAll_of_find consumes_consoleCall hcall]
          exact List.prefix_append _ _
        have hletter : some c = some 'c' := head?_of_consoleCall hcall
        have hslash : some c = some '/' := head?_of_prefix_consoleComment hcomment
        exact absurd (hletter.symm.trans hslash) (by decide)
      | none =>
        rw [commentConsoleCalls, Pattern.replaceAll_of_none hcall] at h
        exact congrArg (c :: ·) (ih (List.cons.inj h).2)

end Repair

/-- The text of a repair is what both passes make of it, since a pass that is left out would keep the
text. The first kind is reported if an image lacks a text, the second if the text then has the start of a
call. -/
theorem repair_eq (s : Text) :
    repair s =
      { text := Repair.commentConsoleCalls (Repair.addImageTexts s)
        kinds :=
          (if Repair.imageWithoutText.occursIn s then [.imageTexts] else []) ++
          (if (Repair.addImageTexts s).contains Repair.callStart then [.consoleCalls] else []) } := by
  have himages : (if Repair.imageWithoutText.occursIn s then Repair.addImageTexts s else s) =
      Repair.addImageTexts s := by
    split
    · rfl
    · rename_i hnone
      exact (Repair.addImageTexts_eq_self_iff.mpr (Bool.eq_false_iff.mpr hnone)).symm
  have hcalls : ∀ t : Text, (if t.contains Repair.callStart then Repair.commentConsoleCalls t else t) =
      Repair.commentConsoleCalls t := by
    intro t
    split
    · rfl
    · rename_i hstart
      exact (Repair.commentConsoleCalls_of_not_infix (mt Text.contains_iff.mpr hstart)).symm
  simp only [repair, himages]
  unfold Repair.callStart at hcalls ⊢
  rw [hcalls]

section Report

variable {s : Text}

/-- Texts of images are reported exactly if they were added. -/
theorem imageTexts_mem_kinds_iff :
    RepairKind.imageTexts ∈ (repair s).kinds ↔ Repair.addImageTexts s ≠ s := by
  have hother : RepairKind.imageTexts ≠ .consoleCalls := by decide
  rw [repair_eq, ne_eq, Repair.addImageTexts_eq_self_iff, Bool.not_eq_false]
  simp only [List.mem_append, List.mem_ite_nil_right, List.mem_singleton, hother, and_true, and_false,
    or_false]

/-- Comments are reported exactly if the text has the start of a call. -/
theorem consoleCalls_mem_kinds_iff :
    RepairKind.consoleCalls ∈ (repair s).kinds ↔ Repair.callStart <:+: Repair.addImageTexts s := by
  have hother : RepairKind.consoleCalls ≠ .imageTexts := by decide
  rw [repair_eq, ← Text.contains_iff]
  simp only [List.mem_append, List.mem_ite_nil_right, List.mem_singleton, hother, and_true, and_false,
    false_or]

/-- Nothing is reported exactly if no image lacked a text and the text has no start of a call. -/
theorem kinds_repair_eq_nil_iff :
    (repair s).kinds = [] ↔ Repair.addImageTexts s = s ∧ ¬ Repair.callStart <:+: s := by
  have hnil : (repair s).kinds = [] ↔
      RepairKind.imageTexts ∉ (repair s).kinds ∧ RepairKind.consoleCalls ∉ (repair s).kinds := by
    rw [List.eq_nil_iff_forall_not_mem]
    exact ⟨fun h => ⟨h _, h _⟩, fun h kind => by cases kind; exacts [h.1, h.2]⟩
  rw [hnil, imageTexts_mem_kinds_iff, consoleCalls_mem_kinds_iff, not_not]
  exact and_congr_right fun h => by rw [h]

/-- A repair keeps a text exactly if no image lacks a text and no call is closed. -/
theorem text_repair_eq_self_iff :
    (repair s).text = s ↔ Repair.addImageTexts s = s ∧ Repair.consoleCall.findAll s = [] := by
  have hfinds : Repair.consoleCall.occursIn s = false ↔ Repair.consoleCall.findAll s = [] := by
    rw [← Bool.not_eq_true, Pattern.occursIn_iff_findAll_ne_nil, not_not]
  rw [repair_eq, ← hfinds, ← Repair.commentConsoleCalls_eq_self_iff]
  constructor
  · intro h
    have himages := Repair.addImageTexts_eq_self_of_comment h
    exact ⟨himages, by rwa [himages] at h⟩
  · rintro ⟨himages, hcalls⟩
    show Repair.commentConsoleCalls (Repair.addImageTexts s) = s
    rw [himages, hcalls]

/-- A repair that reports nothing keeps the text. -/
theorem text_repair_of_kinds_eq_nil (h : (repair s).kinds = []) : (repair s).text = s := by
  obtain ⟨himages, hstart⟩ := kinds_repair_eq_nil_iff.mp h
  calc (repair s).text
      = Repair.commentConsoleCalls (Repair.addImageTexts s) := by rw [repair_eq]
    _ = Repair.commentConsoleCalls s := by rw [himages]
    _ = s := Repair.commentConsoleCalls_of_not_infix hstart

end Report

/-- What a repair reports and what it does. The text is what both passes make of it, the images first.
Texts of images are reported exactly if they were added. Comments are reported exactly if the text has
the start of a call, while calls become comments exactly if such a start is closed, which changes the
text. The text is changed exactly if one of the passes found something, so a repair that reports
something kept the text exactly if no image lacked a text and the text has starts of calls, none of
them closed. -/
theorem repair_reports (s : Text) :
    let images := Repair.addImageTexts s
    let calls := Repair.consoleCall.findAll images
    (repair s).text = Repair.commentConsoleCalls images ∧
    (RepairKind.imageTexts ∈ (repair s).kinds ↔ images ≠ s) ∧
    (RepairKind.consoleCalls ∈ (repair s).kinds ↔ Repair.callStart <:+: images) ∧
    (calls ≠ [] ↔ ∃ before after, images = before ++ (Repair.callStart ++ after) ∧ ')' ∈ after) ∧
    (calls ≠ [] ↔ (repair s).text ≠ images) ∧
    ((repair s).text ≠ s ↔ images ≠ s ∨ calls ≠ []) ∧
    ((repair s).kinds ≠ [] ∧ (repair s).text = s ↔
      images = s ∧ Repair.callStart <:+: s ∧ Repair.consoleCall.findAll s = []) := by
  intro images calls
  refine ⟨by rw [repair_eq], imageTexts_mem_kinds_iff, consoleCalls_mem_kinds_iff, ?_, ?_, ?_, ?_⟩
  · rw [← Pattern.occursIn_iff_findAll_ne_nil, Repair.occursIn_consoleCall_iff]
  · rw [← Pattern.occursIn_iff_findAll_ne_nil, repair_eq, ne_eq,
      Repair.commentConsoleCalls_eq_self_iff, Bool.not_eq_false]
  · rw [ne_eq, text_repair_eq_self_iff, ← not_and_or]
    exact not_congr (and_congr_right fun h => by rw [← show images = s from h])
  · rw [text_repair_eq_self_iff, ne_eq, kinds_repair_eq_nil_iff]
    constructor
    · rintro ⟨hreport, himages, hcalls⟩
      exact ⟨himages, by_contra fun hstart => hreport ⟨himages, hstart⟩, hcalls⟩
    · rintro ⟨himages, hstart, hcalls⟩
      exact ⟨fun hnone => hnone.2 hstart, himages, hcalls⟩

/-- A call that is not closed is reported, and the text stays as it is. -/
theorem repair_of_open_call :
    let s := "console.log(".toList
    (repair s).kinds = [.consoleCalls] ∧ (repair s).text = s ∧
      ¬ ((repair s).kinds ≠ [] ↔ (repair s).text ≠ s) := by
  decide +kernel

end SourceIndex
