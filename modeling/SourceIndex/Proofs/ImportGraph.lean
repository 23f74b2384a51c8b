import SourceIndex.Issue
import SourceIndex.Proofs.ImportRun
import SourceIndex.Proofs.Layout
import SourceIndex.Proofs.Pattern
import SourceIndex.Proofs.Reading
import SourceIndex.Proofs.Symbol

/-!
# Modules of one-line imports

Imports that take one line each, as they are written: the word `import`, a clause, the word `from` and a
quoted module. Two scans read them. The one for the imports of a script goes by lines, and a blank or a
brace may follow the first word. The one for modules goes by characters and looks for a blank there. So
the chunk of the imports covers these lines, and its modules are those of the lines in which a blank
follows some `import` in front of `from`. A line with a brace right behind its first word is covered, but
its module is not found.
-/

namespace SourceIndex

theorem isBlankChar_of_isModuleQuote {c : Char} (h : isModuleQuote c = true) :
    isBlankChar c = false := by
  rw [isModuleQuote, Bool.or_eq_true, beq_iff_eq, beq_iff_eq] at h
  rcases h with rfl | rfl <;> decide

/-! ## What ends a clause -/

/-- A character that neither quotes a module nor ends a statement. -/
def isClauseChar (c : Char) : Bool :=
  !(isModuleQuote c || c == ';')

theorem not_isModuleQuote {c : Char} (h : isClauseChar c = true) : (!isModuleQuote c) = true := by
  rw [isClauseChar, Bool.not_or] at h
  exact (Bool.and_eq_true_iff.mp h).1

theorem not_isModuleQuote_head? {quote : Char} (h : isModuleQuote quote = true) (s : Text) :
    ∀ c ∈ (quote :: s).head?, (!isModuleQuote c) = false :=
  Text.forall_mem_head?_cons (by rw [h, Bool.not_true]) s

/-- What stands in front of `from` and a blank is a clause if it starts with a blank. -/
theorem isImportClause_append_from (clause : Text) :
    isImportClause (clause ++ " from ".toList) = (clause.head?.map isBlankChar).getD false := by
  have htrim : Text.trimEnd (clause ++ " from ".toList) = clause ++ [' '] ++ "from".toList := by
    show Text.trimEnd (clause ++ ([' '] ++ "from".toList ++ [' '])) = _
    rw [← List.append_assoc, ← List.append_assoc, Text.trimEnd_append (by decide)]
    refine Text.trimEnd_eq_self fun c hc => ?_
    rw [List.getLast?_append_of_ne_nil _ (by decide)] at hc
    obtain rfl : 'm' = c := Option.mem_some.mp hc
    decide
  have hlength : (clause ++ [' '] ++ "from".toList).length = (clause ++ [' ']).length + 4 :=
    List.length_append
  have hshorter : (clause ++ [' '] ++ "from".toList).length < (clause ++ " from ".toList).length := by
    simp only [List.length_append]
    exact Nat.lt_succ_self _
  have hends : Text.endsWith (clause ++ [' '] ++ "from".toList) "from".toList = true :=
    List.isSuffixOf_iff_suffix.mpr (List.suffix_append _ _)
  simp only [isImportClause, htrim, hlength, Nat.add_sub_cancel, List.take_left, hends,
    decide_eq_true (hlength ▸ hshorter), Bool.true_and]
  cases clause with
  | nil => rfl
  | cons c clause =>
    have hlast : (c :: clause ++ [' ']).getLast? = some ' ' := List.getLast?_concat
    have htwo : 2 ≤ (c :: clause ++ [' ']).length := by simp
    rw [hlast, decide_eq_true htwo, Bool.true_and]
    exact Bool.and_true (isBlankChar c)

/-- A quoted module is read up to its second quote. -/
theorem quotedModule?_self {module : Text} (hne : module ≠ [])
    (hmodule : ∀ c ∈ module, isModuleQuote c = false ∧ c ≠ '\n') {quote : Char}
    (hquote : isModuleQuote quote = true) (rest : Text) :
    quotedModule? (module ++ quote :: rest) = some (module, rest) := by
  obtain ⟨c, module, rfl⟩ := List.exists_cons_of_ne_nil hne
  obtain ⟨⟨-, hc⟩, hmodule⟩ := List.forall_mem_cons.mp hmodule
  have hspan : (module ++ quote :: rest).span (fun c => !(isModuleQuote c || c == '\n')) =
      (module, quote :: rest) :=
    Text.span_append_boundary (fun d hd => by simp [hmodule d hd])
      (Text.forall_mem_head?_cons (by rw [hquote]; rfl) rest)
  rw [List.cons_append, quotedModule?, if_neg (by simpa using hc), hspan]
  simp only [if_pos hquote]

/-- A module is read only in front of a quote that is the first one behind `import`. -/
theorem of_importedModule_eq_some {s module rest : Text}
    (h : importedModule s = some (module, rest)) :
    ∃ clause quote behind, s = "import".toList ++ (clause ++ quote :: behind) ∧
      (∀ c ∈ clause, isClauseChar c = true) ∧ isModuleQuote quote = true ∧
      quotedModule? behind = some (module, rest) := by
  rw [importedModule, Option.bind_eq_bind, Option.bind_eq_some_iff] at h
  obtain ⟨t, ht, h⟩ := h
  rw [List.span_eq_takeWhile_dropWhile] at h
  have hspan : t.takeWhile isClauseChar ++ t.dropWhile isClauseChar = t :=
    List.takeWhile_append_dropWhile
  have hclause : ∀ c ∈ t.takeWhile isClauseChar, isClauseChar c = true := fun c hc =>
    List.mem_takeWhile_imp hc
  unfold isClauseChar at hspan hclause
  split at h
  · rename_i clause quote behind heq
    obtain ⟨rfl, hdrop⟩ := Prod.mk.inj heq
    rw [hdrop] at hspan
    split at h
    · rename_i hread
      obtain ⟨hquote, -⟩ := Bool.and_eq_true_iff.mp hread
      exact ⟨_, quote, behind, by rw [hspan]; exact Text.eq_append_of_after? ht, hclause, hquote, h⟩
    · cases h
  · cases h

/-- Behind `import` and a clause the quoted module is read. -/
theorem importedModule_append {clause : Text} (hclause : ∀ c ∈ clause, isClauseChar c = true)
    {quote : Char} (hquote : isModuleQuote quote = true) (behind : Text) :
    importedModule ("import".toList ++ (clause ++ quote :: behind)) =
      if isImportClause clause then quotedModule? behind else none := by
  have hspan : (clause ++ quote :: behind).span (fun c => !(isModuleQuote c || c == ';')) =
      (clause, quote :: behind) :=
    Text.span_append_boundary hclause (Text.forall_mem_head?_cons (by rw [hquote]; rfl) behind)
  rw [importedModule, Text.after?_self, Option.bind_eq_bind, Option.bind_some, hspan]
  simp only [hquote, Bool.true_and]

/-- A clause is looked for behind `import` and a blank. -/
theorem isSome_start_append (clause : Text) :
    (ImportClause.start ("import".toList ++ clause)).isSome =
      (clause.head?.map isBlankChar).getD false := by
  rw [ImportClause.start, Text.after?_self, Option.bind_eq_bind, Option.bind_some]
  cases clause with
  | nil => rfl
  | cons c clause =>
    rw [Text.afterBlanks?]
    show _ = isBlankChar c
    cases isBlankChar c <;> rfl

/-- In front of `from`, a blank and a quote, a module is read where `import` and a blank stand. -/
theorem importedModule_append_from {front : Text} (hfront : ∀ c ∈ front, isClauseChar c = true)
    {quote : Char} (hquote : isModuleQuote quote = true) (behind : Text) :
    importedModule (front ++ (" from ".toList ++ quote :: behind)) =
      if (ImportClause.start front).isSome then quotedModule? behind else none := by
  have hword : (front ++ ' ' :: ("from ".toList ++ quote :: behind)).after? "import".toList =
      (front.after? "import".toList).map (· ++ ' ' :: ("from ".toList ++ quote :: behind)) :=
    Text.after?_append_cons (by decide) front _
  cases hclause : front.after? "import".toList with
  | none =>
    have hstart : ImportClause.start front = none := by rw [ImportClause.start, hclause]; rfl
    rw [hclause] at hword
    rw [hstart]
    show (Option.bind ((front ++ ' ' :: ("from ".toList ++ quote :: behind)).after? _) _) = _
    rw [hword]
    rfl
  | some clause =>
    obtain rfl := Text.eq_append_of_after? hclause
    have hfree : ∀ c ∈ clause ++ " from ".toList, isClauseChar c = true := by
      refine List.forall_mem_append.mpr ⟨(List.forall_mem_append.mp hfront).2, ?_⟩
      exact List.all_eq_true.mp rfl
    rw [isSome_start_append, ← isImportClause_append_from, ← importedModule_append hfree hquote behind]
    simp only [List.append_assoc]

theorem importedModule_cons_of_ne {c : Char} (hc : c ≠ 'i') (s : Text) :
    importedModule (c :: s) = none := by
  have hnone : Text.after? (c :: s) "import".toList = none := by
    show (if c == 'i' then _ else none) = none
    exact if_neg (by simpa using hc)
  rw [importedModule, hnone]
  rfl

/-! ## What is found in a statement -/

section Statement

variable {front module rest : Text} {quote : Char}

/-- In front of a quote behind which there is no module, nothing is read. -/
theorem importedModule_append_quote (hfront : ∀ c ∈ front, isModuleQuote c = false)
    (hquote : isModuleQuote quote = true) (hrest : quotedModule? rest = none) :
    importedModule (front ++ quote :: rest) = none := by
  rw [← Option.not_isSome_iff_eq_none, Option.isSome_iff_exists]
  rintro ⟨⟨found, after⟩, hread⟩
  obtain ⟨clause, q, behind, heq, hclause, hq, hquoted⟩ := of_importedModule_eq_some hread
  -- the quote that opens what is read would be the one behind `front`
  have hfront : ∀ c ∈ front, (!isModuleQuote c) = true := fun c hc => by
    rw [hfront c hc, Bool.not_false]
  have hread : ∀ c ∈ "import".toList ++ clause, (!isModuleQuote c) = true :=
    List.forall_mem_append.mpr
      ⟨List.all_eq_true.mp rfl, fun c hc => not_isModuleQuote (hclause c hc)⟩
  rw [← List.append_assoc] at heq
  obtain ⟨-, hbehind⟩ := Text.append_inj_of_boundary hfront (not_isModuleQuote_head? hquote rest) hread
    (not_isModuleQuote_head? hq behind) heq
  rw [List.cons_eq_cons] at hbehind
  rw [hbehind.2, hquoted] at hrest
  cases hrest

theorem dependencies_cons_of_ne {c : Char} (hc : c ≠ 'i') (s : Text) :
    dependencies (c :: s) = dependencies s :=
  Pattern.findAll_of_none (importedModule_cons_of_ne hc s)

/-- No module is found from behind the clause on, if none can be read behind the second quote. -/
theorem dependencies_from (hmodule : ∀ c ∈ module, isModuleQuote c = false)
    (hquote : isModuleQuote quote = true) (hrest : quotedModule? rest = none) :
    dependencies (" from ".toList ++ quote :: (module ++ quote :: rest)) = dependencies rest := by
  have hne : quote ≠ 'i' := by
    rintro rfl
    revert hquote
    decide
  have hmodule : dependencies (module ++ quote :: rest) = dependencies (quote :: rest) :=
    Pattern.findAll_append_of_none fun w hw _ =>
      importedModule_append_quote (fun c hc => hmodule c (hw.subset hc)) hquote hrest
  have hfrom : dependencies (" from ".toList ++ quote :: (module ++ quote :: rest)) =
      dependencies (quote :: (module ++ quote :: rest)) := rfl
  rw [hfrom, dependencies_cons_of_ne hne, hmodule, dependencies_cons_of_ne hne]

/-- The module of a statement is found if a blank follows some `import` in front of `from`. -/
theorem dependencies_statement (hfront : ∀ c ∈ front, isClauseChar c = true) (hne : module ≠ [])
    (hmodule : ∀ c ∈ module, isModuleQuote c = false ∧ c ≠ '\n')
    (hquote : isModuleQuote quote = true) (hrest : quotedModule? rest = none) :
    dependencies (front ++ (" from ".toList ++ quote :: (module ++ quote :: rest))) =
      (if ImportClause.start.occursIn front then [module] else []) ++ dependencies rest := by
  induction front with
  | nil => exact dependencies_from (fun c hc => (hmodule c hc).1) hquote hrest
  | cons c front ih =>
    have hread := importedModule_append_from hfront hquote (module ++ quote :: rest)
    rw [quotedModule?_self hne hmodule hquote] at hread
    rw [List.cons_append] at hread ⊢
    rw [Pattern.occursIn_cons]
    cases hstart : ImportClause.start (c :: front) with
    | some found =>
      rw [hstart] at hread
      have hsuffix : rest <:+ front ++ (" from ".toList ++ quote :: (module ++ quote :: rest)) :=
        ⟨front ++ " from ".toList ++ quote :: module ++ [quote], by simp⟩
      rw [dependencies, Pattern.findAll_of_some hread hsuffix]
      rfl
    | none =>
      rw [hstart] at hread
      rw [dependencies, Pattern.findAll_of_none hread]
      exact ih (List.forall_mem_cons.mp hfront).2

end Statement

/-! ## Statements -/

/-- An import on one line: a clause between `import` and the blank in front of `from`, which starts
with a blank or a brace and has neither quotes nor semicolons, a quoted module, and perhaps a
semicolon at the end. -/
structure ImportStatement where
  clause : Text
  quote : Char
  module : Text
  isEnded : Bool
  clause_head : clause.head? = some ' ' ∨ clause.head? = some '{'
  isClauseChar_of_mem : ∀ c ∈ clause, isClauseChar c = true
  isModuleQuote_quote : isModuleQuote quote = true
  module_ne_nil : module ≠ []
  of_mem_module : ∀ c ∈ module, isModuleQuote c = false ∧ c ≠ '\n'

namespace ImportStatement

variable (s : ImportStatement)

/-- What stands in front of `from` and its blanks. -/
def front : Text :=
  "import".toList ++ s.clause

/-- What follows the module. -/
def ending : Text :=
  if s.isEnded then [';'] else []

/-- The line. -/
def text : Text :=
  s.front ++ (" from ".toList ++ s.quote :: (s.module ++ s.quote :: s.ending))

/-- Whether a blank follows the first word, or the same word stands in the clause with a blank behind. -/
def isRecorded : Bool :=
  s.clause.head? == some ' ' || ImportClause.start.occursIn s.clause

/-- The modules of the statements that are recorded. -/
def modules (statements : List ImportStatement) : List Text :=
  (statements.filter isRecorded).map module

theorem isClauseChar_of_mem_front : ∀ c ∈ s.front, isClauseChar c = true :=
  List.forall_mem_append.mpr ⟨List.all_eq_true.mp rfl, s.isClauseChar_of_mem⟩

/-- A statement is recorded if a blank follows some `import` in front of `from`. -/
theorem occursIn_front : ImportClause.start.occursIn s.front = s.isRecorded := by
  have hcons : s.front = 'i' :: ("mport".toList ++ s.clause) := rfl
  have hmore : ImportClause.start.occursIn ("mport".toList ++ s.clause) =
      ImportClause.start.occursIn s.clause := rfl
  have hstart : (ImportClause.start s.front).isSome = (s.clause.head? == some ' ') := by
    refine (isSome_start_append s.clause).trans ?_
    rcases s.clause_head with hhead | hhead
    · rw [hhead]
      decide
    · rw [hhead]
      decide
  rw [isRecorded, ← hstart, ← hmore, hcons, Pattern.occursIn_cons _ 'i']

/-- No module can be read behind the quote that ends a line. -/
theorem quotedModule?_ending {more : Text} (hmore : ∀ c ∈ more.head?, c = '\n') :
    quotedModule? (s.ending ++ more) = none := by
  unfold ending
  cases more with
  | nil => split <;> rfl
  | cons c more =>
    obtain rfl := hmore c rfl
    split <;> rfl

theorem dependencies_ending (more : Text) : dependencies (s.ending ++ more) = dependencies more := by
  unfold ending
  split <;> rfl

/-- The modules of a line are found, and then those of the lines below. -/
theorem dependencies_text {more : Text} (hmore : ∀ c ∈ more.head?, c = '\n') :
    dependencies (s.text ++ more) = modules [s] ++ dependencies more := by
  have htext : s.text ++ more =
      s.front ++ (" from ".toList ++ s.quote :: (s.module ++ s.quote :: (s.ending ++ more))) := by
    simp only [text, List.append_assoc, List.cons_append]
  rw [htext, dependencies_statement s.isClauseChar_of_mem_front s.module_ne_nil s.of_mem_module
    s.isModuleQuote_quote (s.quotedModule?_ending hmore), s.dependencies_ending, s.occursIn_front,
    modules, List.filter_singleton]
  cases s.isRecorded <;> rfl

/-- The modules found in lines of statements are those that are recorded. -/
theorem dependencies_unlines (statements : List ImportStatement) :
    dependencies (Text.unlines (statements.map text)) = modules statements := by
  induction statements with
  | nil => rfl
  | cons s statements ih =>
    have hmodules : modules (s :: statements) = modules [s] ++ modules statements := by
      rw [modules, modules, modules, ← List.map_append, ← List.filter_append]
      rfl
    rw [hmodules, ← ih]
    cases statements with
    | nil =>
      have hline : dependencies (s.text ++ []) = modules [s] ++ dependencies [] :=
        s.dependencies_text fun c hc => absurd hc (Option.not_mem_none c)
      rw [List.append_nil] at hline
      rwa [List.map_singleton, Text.unlines, List.intercalate_singleton]
    | cons next statements =>
      have hlines : Text.unlines ((s :: next :: statements).map text) =
          s.text ++ '\n' :: Text.unlines ((next :: statements).map text) := by
        rw [List.map_cons, List.map_cons, Text.unlines, List.intercalate_cons_cons, List.append_assoc]
        rfl
      rw [hlines, s.dependencies_text fun c hc => (Option.mem_some.mp hc).symm,
        dependencies_cons_of_ne (by decide)]

/-! ## Lines -/

theorem trim_text : s.text.trim = s.text := by
  refine Text.trim_eq_self (Text.forall_mem_head?_cons (c := 'i') (by decide) _) fun c hc => ?_
  · have htext : s.text = s.front ++ (" from ".toList ++ s.quote :: s.module) ++ (s.quote :: s.ending) := by
      simp only [text, List.append_assoc, List.cons_append]
    rw [htext, List.getLast?_append_of_ne_nil _ (List.cons_ne_nil _ _)] at hc
    unfold ending at hc
    split at hc
    · obtain rfl : ';' = c := Option.mem_some.mp hc
      decide
    · obtain rfl : s.quote = c := Option.mem_some.mp hc
      exact isBlankChar_of_isModuleQuote s.isModuleQuote_quote

/-- A statement is an import, whichever of the two ways it starts in. -/
theorem isImportLine_text : Script.IsImportLine s.text := by
  rw [Script.IsImportLine, s.trim_text]
  have hfront : s.front <+: s.text := List.prefix_append _ _
  rcases s.clause_head with hhead | hhead
  · obtain ⟨clause, hclause⟩ := List.head?_eq_some_iff.mp hhead
    exact .inl (List.IsPrefix.trans ⟨clause, congrArg ("import".toList ++ ·) hclause.symm⟩ hfront)
  · obtain ⟨clause, hclause⟩ := List.head?_eq_some_iff.mp hhead
    exact .inr (List.IsPrefix.trans ⟨clause, congrArg ("import".toList ++ ·) hclause.symm⟩ hfront)

end ImportStatement

/-! ## The chunk of the imports -/

namespace Script

/-- Imports that are all closed are a run, if the first line below them that is not blank is no part of
one. -/
theorem isImportRun_of_imports {imports rest : List Text} (hne : imports ≠ [])
    (himports : ∀ line ∈ imports, IsImportLine line ∧ ¬ OpensImport line)
    (hrest : ∀ line, rest.find? (fun line => !line.isBlank) = some line →
      ¬ IsImportLine line ∧ ¬ IsClosingLine line) :
    IsImportRun (imports ++ rest) 0 (imports.length - 1) := by
  have hpos : 0 < imports.length := List.length_pos_iff.mpr hne
  have hsucc : imports.length - 1 + 1 = imports.length := Nat.sub_add_cancel hpos
  have hmem : ∀ i line, i ≤ imports.length - 1 → (imports ++ rest)[i]? = some line →
      line ∈ imports := by
    intro i line hi hline
    rw [List.getElem?_append_left (by omega)] at hline
    exact List.mem_of_getElem? hline
  constructor
  case isFirst =>
    have hfirst := List.getElem?_eq_getElem (l := imports ++ rest) (i := 0)
      (by rw [List.length_append]; omega)
    exact ⟨⟨_, hfirst, (himports _ (hmem 0 _ (Nat.zero_le _) hfirst)).1⟩,
      fun i _ hi => absurd hi (Nat.not_lt_zero i)⟩
  case le => exact Nat.zero_le _
  case lt =>
    rw [List.length_append]
    omega
  case belongs => exact fun i _ hi line hline => .inl (himports line (hmem i line hi hline)).1
  case not_blank =>
    intro line hline hblank
    rw [(himports line (hmem _ line (Nat.le_refl _) hline)).1.isBlank_eq_false] at hblank
    cases hblank
  case open_to_end =>
    rintro ⟨i, opener, hi, hopener, hopens, -⟩
    exact absurd hopens (himports opener (hmem i opener (Nat.le_of_lt_succ hi) hopener)).2
  case maximal =>
    intro i line hi hline hblank hbetween
    have hrange : imports.length ≤ i := by omega
    rw [List.getElem?_append_right hrange] at hline
    refine hrest line ?_
    rw [List.find?_eq_some_iff_getElem]
    obtain ⟨hlt, hget⟩ := List.getElem?_eq_some_iff.mp hline
    refine ⟨by rw [hblank]; rfl, i - imports.length, hlt, hget, fun k hk => ?_⟩
    have habove : (imports ++ rest)[imports.length + k]? = some rest[k] := by
      rw [List.getElem?_append_right (Nat.le_add_right _ _), Nat.add_sub_cancel_left,
        List.getElem?_eq_getElem]
    rw [hbetween (imports.length + k) _ (by omega) (by omega) habove]
    rfl

/-- The chunk of imports that are all closed has their lines. -/
theorem importChunks_append (path : Text) {imports rest : List Text} (hne : imports ≠ [])
    (himports : ∀ line ∈ imports, IsImportLine line ∧ ¬ OpensImport line)
    (hrest : ∀ line, rest.find? (fun line => !line.isBlank) = some line →
      ¬ IsImportLine line ∧ ¬ IsClosingLine line) :
    importChunks path (imports ++ rest) = [.ofBlock path .imports "imports".toList 0 imports] := by
  have hrun := (isImportRun_of_imports hne himports hrest).importRun?_eq_some
  have hsucc : imports.length - 1 + 1 - 0 = imports.length :=
    Nat.sub_add_cancel (List.length_pos_iff.mpr hne)
  rw [importChunks, hrun]
  simp only [hsucc, List.drop_zero, List.take_left]

/-- The chunk of the imports is the first one. -/
theorem chunk?_of_importChunks (extensions : List Text) {path content : Text} {c : Chunk}
    (hblank : content.isBlank = false) (h : importChunks path content.lines = [c]) :
    (chunker extensions).chunk? path content =
      some (c :: (typeChunks path content.lines ++ valueChunks path content.lines)) := by
  have hcut := chunk?_chunker extensions path hblank
  rw [h] at hcut
  exact hcut.trans (congrArg some (if_neg (List.cons_ne_nil _ _)))

/-- Only the imports of a script are a chunk of imports. -/
theorem kind_ne_imports {path : Text} {lines : List Text} {c : Chunk}
    (hc : c ∈ typeChunks path lines ++ valueChunks path lines) : c.kind ≠ .imports := by
  have hlayout := layout_chunks path lines
  rcases List.mem_append.mp hc with hc | hc
  · rcases (hlayout.types_declared c hc).1 with hkind | hkind <;> rw [hkind] <;> decide
  · intro hkind
    have hvalue := (hlayout.values_declared c hc).1
    rw [hkind] at hvalue
    revert hvalue
    decide

/-- A script with an import is not blank. -/
theorem isBlank_eq_false_of_import {content line : Text} (hline : line ∈ content.lines)
    (himport : IsImportLine line) : content.isBlank = false := by
  rw [← Bool.not_eq_true]
  intro hblank
  have hinside : line <:+: content := Text.infix_of_mem_splitOn hline
  have hline : line.isBlank = true :=
    List.all_eq_true.mpr fun c hc => List.all_eq_true.mp hblank c (hinside.subset hc)
  exact Bool.false_ne_true (himport.isBlank_eq_false.symm.trans hline)

/-- A file with one chunk of imports imports what this chunk depends on. -/
theorem importedModules_cons {c : Chunk} {others : List Chunk} (hc : c.kind = .imports)
    (hothers : ∀ d ∈ others, d.kind ≠ .imports) :
    importedModules (c :: others) = c.dependencies := by
  have hkept : (c.kind == .imports) = true := beq_iff_eq.mpr hc
  have hdropped : others.filter (·.kind == .imports) = [] :=
    List.filter_eq_nil_iff.mpr fun d hd => mt beq_iff_eq.mp (hothers d hd)
  have hfilter : (c :: others).filter (·.kind == .imports) = [c] :=
    (List.filter_cons_of_pos (p := fun d : Chunk => d.kind == .imports) hkept).trans
      (congrArg (c :: ·) hdropped)
  rw [importedModules, hfilter, List.flatMap_singleton]

/-- A script starts with imports on one line each, and a line follows that is no part of an import, if any
line follows that is not blank. If no line leaves a brace open, the first chunk has exactly the lines of
the imports, and no other chunk is one of imports. The modules that it depends on, and those that the file
has in the graph of imports, are the modules of the statements that are recorded, in order. -/
theorem chunk?_of_statements (extensions : List Text) (path : Text) {content : Text}
    {statements : List ImportStatement} {rest : List Text} (hne : statements ≠ [])
    (hlines : content.lines = statements.map ImportStatement.text ++ rest)
    (hclosed : ∀ s ∈ statements, '{' ∈ s.text → '}' ∈ s.text)
    (hrest : ∀ line, rest.find? (fun line => !line.isBlank) = some line →
      ¬ IsImportLine line ∧ ¬ IsClosingLine line) :
    ∃ c others, (chunker extensions).chunk? path content = some (c :: others) ∧
      (c.kind = .imports ∧ ∀ d ∈ others, d.kind ≠ .imports) ∧
      (c.startLine = 0 ∧ c.endLine = (statements.length - 1 : Nat) ∧
        c.content = Text.unlines (statements.map ImportStatement.text)) ∧
      c.dependencies = ImportStatement.modules statements ∧
      ∀ (files : OrderedMap Text FileRecord) (f : FileRecord),
        (∀ entry ∈ files.entries, entry.2.path = entry.1) → (path, f) ∈ files.entries →
        f.chunks = c :: others →
        (Snapshot.importsOf files).get? path = some (ImportStatement.modules statements) := by
  have himports : ∀ line ∈ statements.map ImportStatement.text,
      IsImportLine line ∧ ¬ OpensImport line := by
    intro line hline
    obtain ⟨s, hs, rfl⟩ := List.mem_map.mp hline
    exact ⟨s.isImportLine_text, fun hopens => hopens.2.2 (hclosed s hs hopens.2.1)⟩
  have hchunk : importChunks path content.lines =
      [.ofBlock path .imports "imports".toList 0 (statements.map ImportStatement.text)] := by
    rw [hlines]
    exact importChunks_append path (mt List.map_eq_nil_iff.mp hne) himports hrest
  obtain ⟨first, statements', hcons⟩ := List.exists_cons_of_ne_nil hne
  have hfirst : first.text ∈ content.lines := by
    rw [hlines, hcons]
    exact List.mem_cons_self
  have hblank := isBlank_eq_false_of_import hfirst first.isImportLine_text
  have hothers : ∀ d ∈ typeChunks path content.lines ++ valueChunks path content.lines,
      d.kind ≠ .imports := fun d hd => kind_ne_imports hd
  have hmodules := ImportStatement.dependencies_unlines statements
  refine ⟨_, _, chunk?_of_importChunks extensions hblank hchunk, ⟨rfl, hothers⟩, ⟨rfl, ?_, rfl⟩,
    hmodules, ?_⟩
  · show ((0 + (statements.map ImportStatement.text).length - 1 : Nat) : Int) = _
    rw [List.length_map, Nat.zero_add]
  · intro files f hpaths hf hchunks
    rw [Snapshot.importsOf_eq_mapValues hpaths, OrderedMap.get?_mapValues,
      OrderedMap.get?_eq_some_iff.mpr hf, Option.map_some, hchunks, importedModules_cons rfl hothers]
    exact congrArg some hmodules

/-- Two imports, one with a blank and one with a brace behind the first word, and a constant. -/
theorem chunk?_of_statements_of_both_starts :
    let path : Text := "a.ts".toList
    let content : Text := "import a from 'x'\nimport\x7bb\x7d from \"y\";\n\nconst c = []".toList
    let statements : List ImportStatement :=
      [⟨" a".toList, '\'', "x".toList, false, .inl rfl, List.all_eq_true.mp rfl, rfl, by decide,
          List.forall_mem_singleton.mpr (by decide)⟩,
        ⟨"\x7bb\x7d".toList, '"', "y".toList, true, .inr rfl, List.all_eq_true.mp rfl, rfl, by decide,
          List.forall_mem_singleton.mpr (by decide)⟩]
    let rest : List Text := [[], "const c = []".toList]
    statements ≠ [] ∧ content.lines = statements.map ImportStatement.text ++ rest ∧
      (∀ s ∈ statements, '{' ∈ s.text → '}' ∈ s.text) ∧
      (∀ line, rest.find? (fun line => !line.isBlank) = some line →
        ¬ IsImportLine line ∧ ¬ IsClosingLine line) ∧
      ∃ f : FileRecord, (chunker []).chunk? path content = some f.chunks ∧
        f.chunks.map (fun c => (c.startLine, c.endLine)) = [(0, 1), (3, 3)] ∧
        (Snapshot.importsOf (.ofList [(path, f)])).get? path = some ["x".toList] := by
  intro path content statements rest
  have hlines : content.lines = statements.map ImportStatement.text ++ rest := by decide +kernel
  have hclosed : ∀ s ∈ statements, '{' ∈ s.text → '}' ∈ s.text := by decide +kernel
  have hrest : ∀ line, rest.find? (fun line => !line.isBlank) = some line →
      ¬ IsImportLine line ∧ ¬ IsClosingLine line := by
    intro line hline
    obtain rfl : "const c = []".toList = line := Option.some.inj hline
    rw [← startsImport_iff, ← closesImport_iff]
    decide +kernel
  obtain ⟨c, others, hchunk, -, -, -, hgraph⟩ := chunk?_of_statements [] path
    (List.cons_ne_nil _ _) hlines hclosed hrest
  have hspans : ((chunker []).chunk? path content).map (List.map fun c => (c.startLine, c.endLine)) =
      some [(0, 1), (3, 3)] := by decide +kernel
  have hmodules : ImportStatement.modules statements = ["x".toList] := by decide +kernel
  rw [hchunk] at hspans
  rw [hmodules] at hgraph
  refine ⟨List.cons_ne_nil _ _, hlines, hclosed, hrest,
    ⟨path, [], c :: others, []⟩, hchunk, Option.some.inj hspans, ?_⟩
  exact hgraph _ _ (fun entry hentry => by rw [List.mem_singleton.mp hentry]) (List.mem_singleton.mpr rfl)
    rfl

/-- A brace right behind the first word: the line is the run of the imports, but nothing is imported. A
brace in the name of a module: the run goes on to the line below. -/
theorem importRun?_of_braces :
    importRun? ["import\x7ba\x7d from 'x'".toList] = some (0, 0) ∧
      ((chunker []).chunk? "a.ts".toList "import\x7ba\x7d from 'x'".toList).map importedModules = some [] ∧
      importRun? ["import a from './\x7bb'".toList, "const x = 1".toList] = some (0, 1) := by
  decide +kernel

end Script

end SourceIndex
