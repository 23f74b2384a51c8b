import SourceIndex.Benchmark.Fixture
import SourceIndex.Proofs.ImportGraph
import SourceIndex.Proofs.Numbered
import SourceIndex.Proofs.SelfContained
import SourceIndex.Proofs.Statements

/-!
# Chunks of generated files

The files of a generated project differ in their numbers only, and a number stands in names, literals and
values. So whatever the numbers are, each file is cut into the same kinds of chunks: a hook or a component
behind its imports, a constant and a function, two rule sets, two statements.

A recogniser computes on a line with a number up to the word that ends in the number, which
`Text.takeWord_number` reads whole; a block ends where it does without its numbers, which is computed. Where
a fixed text is computed on, its literals are turned into lists of characters first.
-/

namespace SourceIndex

namespace Text

variable {n : Text} (hn : IsNumber n)
include hn

/-- A number has no newline. -/
theorem newline_not_mem_number {a b : Text} (ha : '\n' ∉ a) (hb : '\n' ∉ b) :
    '\n' ∉ a ++ n ++ b := by
  rw [List.mem_append, List.mem_append]
  rintro ((h | h) | h)
  · exact ha h
  · exact absurd (hn.isDigit _ h) (by decide)
  · exact hb h

end Text

/-- The kinds of the chunks into which a chunker cuts a file, unless it fails. -/
def Chunker.kinds? (c : Chunker) (path content : Text) : Option (List Chunk.Kind) :=
  (c.chunk? path content).map (List.map (·.kind))

/-! ## Scripts -/

namespace Script

/-- Plain code that does not start with a closing brace is no end of an import. -/
theorem not_isClosingLine {line : Text} (hplain : line.all isPlainCode = true)
    (hbrace : line.trim.head? ≠ some '}') : ¬ IsClosingLine line := by
  have hnone : ∀ w : Text, w.any isModuleQuote = true → ¬ w <:+: line.trim := by
    intro w hw hinside
    obtain ⟨c, hc, hquote⟩ := List.any_eq_true.mp hw
    have hmem : c ∈ line := (Text.mem_trim_iff (isBlankChar_of_isModuleQuote hquote)).mp
      (hinside.subset hc)
    have hcode := List.all_eq_true.mp hplain c hmem
    rcases Bool.or_eq_true_iff.mp hquote with h | h
    all_goals
      rw [eq_of_beq h] at hcode
      revert hcode
      decide
  rintro (h | h | h)
  · obtain ⟨rest, hrest⟩ := h
    exact hbrace (by rw [← hrest]; rfl)
  · exact hnone _ (by decide) h
  · exact hnone _ (by decide) h

/-- An import that is whole on one line and declares no type. -/
@[mk_iff]
structure IsWholeImport (line : Text) : Prop where
  no_newline : '\n' ∉ line
  isImport : startsImport line.trim = true
  closes : '}' ∈ line
  not_type : typeDeclaration? line = none

instance (line : Text) : Decidable (IsWholeImport line) :=
  decidable_of_iff' _ (isWholeImport_iff line)

/-- A script of imports and plain lines below a blank line is cut into the imports and the functions and
constants of the plain lines. -/
theorem chunk?_of_imports (extensions : List Text) (path : Text) {imports body : List Text}
    {line : Text} (hne : imports ≠ []) (himports : ∀ line ∈ imports, IsWholeImport line)
    (hbody : ∀ l ∈ line :: body, IsPlain l) (hblank : line.isBlank = false)
    (hclosing : ¬ IsClosingLine line) :
    (chunker extensions).chunk? path (Text.unlines (imports ++ [] :: line :: body)) =
      some (.ofBlock path .imports "imports".toList 0 imports ::
        valuesFrom path (imports.length + 1) (line :: body)) := by
  have hplain : ∀ l ∈ [] :: line :: body, IsPlain l :=
    List.forall_mem_cons.mpr ⟨IsBlankLine.plain ⟨rfl, List.not_mem_nil⟩, hbody⟩
  have hclosed : ∀ l ∈ imports, IsImportLine l ∧ ¬ OpensImport l := fun l hl =>
    ⟨startsImport_iff.mp (himports l hl).isImport, fun hopens => hopens.2.2 (himports l hl).closes⟩
  have hrest : ∀ l, ([] :: line :: body).find? (fun l : Text => !l.isBlank) = some l →
      ¬ IsImportLine l ∧ ¬ IsClosingLine l := by
    intro l hl
    rw [List.find?_cons_of_neg (by simp [Text.isBlank]),
      List.find?_cons_of_pos (by simp [hblank])] at hl
    obtain rfl := Option.some.inj hl
    have himport := (hbody line List.mem_cons_self).not_import
    rw [← Bool.not_eq_true, startsImport_iff] at himport
    exact ⟨himport, hclosing⟩
  have hall : ∀ l ∈ imports ++ [] :: line :: body, '\n' ∉ l ∧ typeDeclaration? l = none := by
    intro l hl
    rcases List.mem_append.mp hl with hl | hl
    · exact ⟨(himports l hl).no_newline, (himports l hl).not_type⟩
    · exact ⟨(hplain l hl).no_newline, (hplain l hl).not_type⟩
  have hread : (Text.unlines (imports ++ [] :: line :: body)).lines =
      imports ++ [] :: line :: body :=
    Text.lines_unlines (List.append_ne_nil_of_left_ne_nil hne _) fun l hl => (hall l hl).1
  have hcontent : (Text.unlines (imports ++ [] :: line :: body)).isBlank = false := by
    obtain ⟨l, hl⟩ := List.exists_mem_of_ne_nil imports hne
    have hmem : l ∈ (Text.unlines (imports ++ [] :: line :: body)).lines := by
      rw [hread]
      exact List.mem_append_left _ hl
    exact isBlank_eq_false_of_import hmem (hclosed l hl).1
  have htypes : typeChunks path (imports ++ [] :: line :: body) = [] := by
    rw [typeChunks, blocks_eq_nil fun l hl => (hall l hl).2]
    rfl
  have hvalues : valueChunks path (imports ++ [] :: line :: body) =
      valuesFrom path (imports.length + 1) (line :: body) := by
    have hrun := (isImportRun_of_imports hne hclosed hrest).importRun?_eq_some
    have hstart : bodyStart (imports ++ [] :: line :: body) = imports.length := by
      rw [bodyStart, hrun]
      exact Nat.sub_add_cancel (List.length_pos_iff.mpr hne)
    rw [valueChunks, hstart, blocks, List.drop_left]
    rfl
  have himport : importChunks path (Text.unlines (imports ++ [] :: line :: body)).lines =
      [.ofBlock path .imports "imports".toList 0 imports] := by
    rw [hread]
    exact importChunks_append path hne hclosed hrest
  rw [chunk?_of_importChunks extensions hcontent himport, hread, htypes, hvalues]
  rfl

/-- A line of code with a number is plain if it starts neither a type nor an import. -/
theorem isPlain_number {a b n : Text} (h : IsFrame a b) (hn : IsNumber n)
    (htype : typeDeclaration? (a ++ n ++ b) = none)
    (himport : startsImport (a.trimStart ++ n ++ b.trimEnd) = false) : IsPlain (a ++ n ++ b) where
  no_newline := fun hmem => absurd (List.all_eq_true.mp (h.isPlainCode hn) _ hmem) (by decide)
  not_type := htype
  not_import := by rw [Text.trim_number hn, himport]

/-- A line that declares no type declares the function that it names. -/
theorem declaration?_of_function {line name : Text} (htype : typeDeclaration? line = none)
    (hname : functionName? line = some name) :
    declaration? line = some (some (functionKind name, name)) := by
  rw [declaration?, htype, hname]
  rfl

/-- A line that declares no type and starts like a function declares that function. -/
theorem declaration?_of_functionDeclaration? {line name : Text}
    (htype : typeDeclaration? line = none) (hdeclared : functionDeclaration? line = some name) :
    declaration? line = some (some (functionKind name, name)) :=
  declaration?_of_function htype (by rw [functionName?, hdeclared, Option.some_or, Option.some_or])

/-- A line that declares neither a type nor a function declares the constant that it names. -/
theorem declaration?_of_constant {line name : Text} (htype : typeDeclaration? line = none)
    (hfunction : functionName? line = none) (hname : literalConstant? line = some name) :
    declaration? line = some (some (.constant, name)) := by
  rw [declaration?, htype, hfunction, hname]
  rfl

/-- A text that binds a name to a value with an arrow binds it to an arrow function. -/
theorem arrowBinding?_of_binding? {s name rest value : Text}
    (hbinding : binding? ["const".toList, "let".toList] s = some (name, rest))
    (hassigned : afterAssignment? rest = some value)
    (harrow : value.contains "=>".toList = true) : arrowBinding? s = some name := by
  rw [arrowBinding?, hbinding]
  show ((afterAssignment? rest).bind fun value =>
    if value.contains "=>".toList then some name else none) = some name
  rw [hassigned, Option.bind_some, if_pos harrow]

/-- A block makes one chunk, and the blank line below it makes none. -/
theorem valuesFrom_block_blank {line name : Text} {rest : List Text} {kind : Chunk.Kind}
    (hlabel : declaration? line.trim = some (some (kind, name)))
    (hreach : reachFrom? {} (line :: rest) = some rest.length) (path : Text) (first : Nat)
    (behind : List Text) : valuesFrom path first (line :: rest ++ [] :: behind) =
      .ofBlock path kind name first (line :: rest) ::
        valuesFrom path (first + (line :: rest).length + 1) behind := by
  have hblank : ∀ line ∈ [([] : Text)], IsBlankLine line := by decide
  rw [valuesFrom_block hlabel hreach]
  exact congrArg _ (valuesFrom_blanks hblank path _ behind)

/-- A line that declares something is not blank. -/
theorem isBlank_eq_false_of_declaration? {line : Text} {label : Option (Chunk.Kind × Text)}
    (h : declaration? line.trim = some label) : line.isBlank = false := by
  rw [← Bool.not_eq_true]
  intro hblank
  rw [Text.trim_eq_nil hblank] at h
  cases h

/-- A script of imports, a block below a blank line and a blank line at the end is cut into the imports
and the block. -/
theorem kinds?_of_imports (extensions : List Text) (path : Text) {imports rest : List Text}
    {line name : Text} {kind : Chunk.Kind} (hne : imports ≠ [])
    (himports : ∀ line ∈ imports, IsWholeImport line) (hplain : ∀ l ∈ line :: rest, IsPlain l)
    (hclosing : ¬ IsClosingLine line)
    (hlabel : declaration? line.trim = some (some (kind, name)))
    (hreach : reachFrom? {} (line :: rest) = some rest.length) :
    (chunker extensions).kinds? path (Text.unlines (imports ++ [] :: (line :: rest ++ [[]]))) =
      some [.imports, kind] := by
  have hbody : ∀ l ∈ line :: (rest ++ [[]]), IsPlain l := by
    intro l hl
    rcases List.mem_append.mp (show l ∈ (line :: rest) ++ [[]] from hl) with hl | hl
    · exact hplain l hl
    · rw [List.mem_singleton.mp hl]
      exact IsBlankLine.plain ⟨rfl, List.not_mem_nil⟩
  have hvalues : valuesFrom path (imports.length + 1) (line :: (rest ++ [[]])) =
      [.ofBlock path kind name (imports.length + 1) (line :: rest)] :=
    valuesFrom_block_blank hlabel hreach path _ []
  have hchunks := chunk?_of_imports extensions path hne himports hbody
    (isBlank_eq_false_of_declaration? hlabel) hclosing
  rw [Chunker.kinds?, List.cons_append, hchunks, hvalues]
  rfl

/-- A script of two blocks, each above a blank line, is cut into the blocks. -/
theorem kinds?_of_blocks (extensions : List Text) (path : Text) {line line' name name' : Text}
    {rest rest' : List Text} {kind kind' : Chunk.Kind}
    (hplain : ∀ l ∈ line :: rest, IsPlain l) (hplain' : ∀ l ∈ line' :: rest', IsPlain l)
    (hlabel : declaration? line.trim = some (some (kind, name)))
    (hreach : reachFrom? {} (line :: rest) = some rest.length)
    (hlabel' : declaration? line'.trim = some (some (kind', name')))
    (hreach' : reachFrom? {} (line' :: rest') = some rest'.length) :
    (chunker extensions).kinds? path
        (Text.unlines (line :: rest ++ [] :: (line' :: rest' ++ [[]]))) = some [kind, kind'] := by
  have hempty : IsPlain ([] : Text) := IsBlankLine.plain ⟨rfl, List.not_mem_nil⟩
  have hall : ∀ l ∈ line :: rest ++ [] :: (line' :: rest' ++ [[]]), IsPlain l :=
    List.forall_mem_append.mpr ⟨hplain, List.forall_mem_cons.mpr
      ⟨hempty, List.forall_mem_append.mpr ⟨hplain', List.forall_mem_singleton.mpr hempty⟩⟩⟩
  have hvalues := valuesFrom_block_blank hlabel hreach path 0 (line' :: rest' ++ [[]])
  rw [valuesFrom_block_blank hlabel' hreach'] at hvalues
  have hne : valuesFrom path 0 (line :: rest ++ [] :: (line' :: rest' ++ [[]])) ≠ [] := by
    rw [hvalues]
    exact List.cons_ne_nil _ _
  rw [Chunker.kinds?, chunk?_of_plain extensions path hall hne, hvalues]
  rfl

end Script

/-! ## Stylesheets -/

namespace Stylesheet

/-- A stylesheet of two rule sets, each above a blank line, is cut into the rule sets. -/
theorem kinds?_of_blocks (extensions : List Text) (path : Text) {line line' name name' : Text}
    {rest rest' : List Text}
    (hlines : ∀ l ∈ line :: rest ++ [] :: (line' :: rest' ++ [[]]), '\n' ∉ l)
    (hcontent :
      (Text.unlines (line :: rest ++ [] :: (line' :: rest' ++ [[]]))).isBlank = false)
    (hlabel : ruleSet? line = some name)
    (hreach : reachFrom? {} (line :: rest) = some rest.length)
    (hlabel' : ruleSet? line' = some name')
    (hreach' : reachFrom? {} (line' :: rest') = some rest'.length) :
    (chunker extensions).kinds? path
        (Text.unlines (line :: rest ++ [] :: (line' :: rest' ++ [[]]))) = some [.style, .style] := by
  have hempty : ∀ l ∈ [([] : Text)], ruleSet? l = none := by decide
  have hlines' :=
    Text.lines_unlines (List.append_ne_nil_of_left_ne_nil (List.cons_ne_nil _ _) _) hlines
  have hblocks : blocks ruleSet? 0 (line :: rest ++ [] :: (line' :: rest' ++ [[]])) =
      [⟨name, 0, line :: rest⟩, ⟨name', 0 + (line :: rest).length + 1, line' :: rest'⟩] := by
    have hfirst := blocksFrom_block ruleSet? hlabel hreach 0 ([] :: (line' :: rest' ++ [[]]))
    have hgap := blocksFrom_pass hempty (0 + (line :: rest).length) (line' :: rest' ++ [[]])
    have hsecond := blocksFrom_block ruleSet? hlabel' hreach' (0 + (line :: rest).length + 1) [[]]
    exact hfirst.trans (congrArg _ (hgap.trans hsecond))
  have hsets : ruleSets path (Text.unlines (line :: rest ++ [] :: (line' :: rest' ++ [[]]))) =
      [.ofBlock path .style name 0 (line :: rest),
        .ofBlock path .style name' (0 + (line :: rest).length + 1) (line' :: rest')] := by
    rw [ruleSets, hlines', hblocks]
    rfl
  rw [Chunker.kinds?, chunk?_chunker extensions path hcontent, hsets]
  rfl

end Stylesheet

/-! ## Query files -/

namespace QueryFile

/-- A statement that ends a line is split off. -/
theorem splitStatements_append {statement : Text} (h : ';' ∉ statement) (rest : Text) :
    splitStatements (statement ++ ';' :: '\n' :: rest) =
      (statement, [';', '\n']) :: splitStatements rest := by
  have hstart : separator (';' :: '\n' :: rest) = some ([';', '\n'], rest) := rfl
  have hsplit : separator.splitAfter (statement ++ ';' :: '\n' :: rest) =
      ((statement, [';', '\n']) :: (separator.splitAfter rest).1,
        (separator.splitAfter rest).2) := by
    induction statement with
    | nil => exact Pattern.splitAfter_of_some reads_separator hstart
    | cons c statement ih =>
      obtain ⟨hc, hstatement⟩ := List.ne_and_not_mem_of_not_mem_cons h
      have hnone : separator (c :: (statement ++ ';' :: '\n' :: rest)) = none := by
        unfold separator
        split
        · rename_i heq
          exact absurd (List.cons.inj heq).1.symm hc
        · rfl
      rw [List.cons_append, Pattern.splitAfter_of_none hnone, ih hstatement]
  rw [splitStatements, hsplit]
  rfl

/-- A file of two statements, each at the end of a line, is cut into the statements. -/
theorem kinds?_of_statements (extensions : List Text) (path : Text) {s s' : Text}
    (hs : ';' ∉ s) (hs' : ';' ∉ s') (hblank : s.isBlank = false) (hblank' : s'.isBlank = false) :
    (chunker extensions).kinds? path (s ++ ';' :: '\n' :: (s' ++ [';', '\n'])) =
      some [.query, .query] := by
  have hsplit : splitStatements (s ++ ';' :: '\n' :: (s' ++ [';', '\n'])) =
      [(s, [';', '\n']), (s', [';', '\n']), ([], [])] := by
    rw [splitStatements_append hs, splitStatements_append hs']
    rfl
  rw [Chunker.kinds?, chunk?_chunker, statements, hsplit, statementsFrom, hblank, statementsFrom,
    hblank']
  rfl

end QueryFile

namespace Benchmark.Profile

open Script

/-! ## Hooks -/

/-- The import of a hook. -/
def hookImports : List Text :=
  ["import \x7b useEffect, useState \x7d from 'react';".toList]

/-- The first line of a hook. -/
def hookHeader (n : Text) : Text :=
  "export function useProfile".toList ++ n ++ "(userId: string) \x7b".toList

/-- The other lines of a hook. -/
def hookRest : List Text :=
  ["  const [profile, setProfile] = useState(null);".toList,
    "  useEffect(() => \x7b".toList,
    "    fetch(\x60/api/users/$\x7buserId\x7d\x60)".toList ++
      ".then((r) => r.json()).then(setProfile);".toList,
    "  \x7d, [userId]);".toList,
    "  return profile;".toList,
    "\x7d".toList]

theorem hookSource_eq (index : Nat) : hookSource index = Text.unlines
    (hookImports ++ [] :: (hookHeader (Text.ofNat index) :: hookRest ++ [[]])) :=
  rfl

theorem isFrame_hookHeader :
    IsFrame "export function useProfile".toList "(userId: string) \x7b".toList := by
  rw [String.toList_ofList, String.toList_ofList]
  decide

theorem isPlain_hookRest : ∀ line ∈ hookRest, IsPlain line := by
  unfold hookRest
  repeat rw [String.toList_ofList]
  decide

section Hook

variable {n : Text} (hn : IsNumber n)
include hn

theorem trim_hookHeader : (hookHeader n).trim = hookHeader n :=
  Text.trim_number hn _ _

theorem isPlain_hookHeader : IsPlain (hookHeader n) :=
  isPlain_number isFrame_hookHeader hn rfl rfl

theorem not_isClosingLine_hookHeader : ¬ IsClosingLine (hookHeader n) := by
  have hhead : (hookHeader n).head? = some 'e' := rfl
  refine not_isClosingLine (isFrame_hookHeader.isPlainCode hn) ?_
  rw [trim_hookHeader hn, hhead]
  decide

/-- The first line of a hook declares the hook. -/
theorem declaration?_hookHeader : Script.declaration? (hookHeader n).trim =
    some (some (.hook, "useProfile".toList ++ n)) := by
  have hword : Text.takeWord ("useProfile".toList ++ n ++ "(userId: string) \x7b".toList) =
      some ("useProfile".toList ++ n, "(userId: string) \x7b".toList) :=
    Text.takeWord_number hn (by decide) (by decide)
  -- what stands in front of the word is fixed, so reading it computes
  have hdeclared : functionDeclaration? (hookHeader n) =
      (Text.takeWord ("useProfile".toList ++ n ++ "(userId: string) \x7b".toList)).bind
        fun r => some r.1 := rfl
  rw [hword, Option.bind_some] at hdeclared
  rw [trim_hookHeader hn, declaration?_of_functionDeclaration? rfl hdeclared]
  rfl

/-- A hook ends at its last line. -/
theorem reachFrom?_hook : reachFrom? {} (hookHeader n :: hookRest) = some hookRest.length := by
  have hsame : List.Forall₂ SameBrackets (hookHeader n :: hookRest) (hookHeader [] :: hookRest) :=
    .cons (sameBrackets_number hn isFrame_hookHeader) (SameBrackets.forall₂_refl _)
  rw [reachFrom?_of_sameBrackets hsame]
  unfold hookHeader hookRest
  repeat rw [String.toList_ofList]
  decide

end Hook

/-- A hook is cut into its import and the hook. -/
theorem kinds?_hookSource (extensions : List Text) (path : Text) (index : Nat) :
    (Script.chunker extensions).kinds? path (hookSource index) = some [.imports, .hook] := by
  have hn := isNumber_ofNat index
  have himports : ∀ line ∈ hookImports, IsWholeImport line := by
    unfold hookImports
    rw [String.toList_ofList]
    decide
  have hplain : ∀ line ∈ hookHeader (Text.ofNat index) :: hookRest, IsPlain line :=
    List.forall_mem_cons.mpr ⟨isPlain_hookHeader hn, isPlain_hookRest⟩
  rw [hookSource_eq]
  exact kinds?_of_imports extensions path (List.cons_ne_nil _ _) himports hplain
    (not_isClosingLine_hookHeader hn) (declaration?_hookHeader hn) (reachFrom?_hook hn)

/-! ## Components -/

/-- The import of a hook by its number. -/
def profileImport (k : Text) : Text :=
  "import \x7b useProfile".toList ++ k ++ " \x7d from '../hooks/useProfile".toList ++ k ++ "';".toList

/-- The imports of a component. -/
def componentImports (k : Text) : List Text :=
  ["import \x7b useState \x7d from 'react';".toList, profileImport k]

/-- The first line of a component. -/
def componentHeader (n : Text) : Text :=
  "export function UserCard".toList ++ n ++ "(\x7b userId \x7d: \x7b userId: string \x7d) \x7b".toList

/-- The line of a component that names its hook. -/
def profileLine (k : Text) : Text :=
  "  const profile = useProfile".toList ++ k ++ "(userId);".toList

/-- The lines of a component between its hook and its element. -/
def componentBody : List Text :=
  ["  const [open, setOpen] = useState(false);".toList,
    "  if (!profile) \x7b".toList,
    "    return null;".toList,
    "  \x7d".toList,
    "  return (".toList]

/-- The line of a component that opens its element. -/
def cardLine (n : Text) : Text :=
  "    <div className=\"card-".toList ++ n ++ "\" onClick=\x7b() => setOpen(!open)\x7d>".toList

/-- The lines of a component below the one that opens its element. -/
def componentEnd : List Text :=
  ["      \x7bprofile.name\x7d".toList,
    "    </div>".toList,
    "  );".toList,
    "\x7d".toList]

/-- The lines of a component below its first. -/
def componentRest (k n : Text) : List Text :=
  profileLine k :: (componentBody ++ cardLine n :: componentEnd)

theorem componentSource_eq (index : Nat) : componentSource index = Text.unlines
    (componentImports (Text.ofNat (index % 7)) ++
      [] :: (componentHeader (Text.ofNat index) ::
        componentRest (Text.ofNat (index % 7)) (Text.ofNat index) ++ [[]])) :=
  rfl

/-- The import of one of the first hooks is an import on a line of its own. -/
theorem isWholeImport_profileImport : ∀ k < 7, IsWholeImport (profileImport (Text.ofNat k)) := by
  unfold profileImport
  repeat rw [String.toList_ofList]
  decide

theorem isFrame_componentHeader : IsFrame "export function UserCard".toList
    "(\x7b userId \x7d: \x7b userId: string \x7d) \x7b".toList := by
  rw [String.toList_ofList, String.toList_ofList]
  decide

theorem isFrame_profileLine : IsFrame "  const profile = useProfile".toList "(userId);".toList := by
  rw [String.toList_ofList, String.toList_ofList]
  decide

theorem isPlain_componentBody : ∀ line ∈ componentBody, IsPlain line := by
  unfold componentBody
  repeat rw [String.toList_ofList]
  decide

theorem isPlain_componentEnd : ∀ line ∈ componentEnd, IsPlain line := by
  unfold componentEnd
  repeat rw [String.toList_ofList]
  decide

section Component

variable {k n : Text} (hk : IsNumber k) (hn : IsNumber n)

section Header

include hn

theorem trim_componentHeader : (componentHeader n).trim = componentHeader n :=
  Text.trim_number hn _ _

theorem isPlain_componentHeader : IsPlain (componentHeader n) :=
  isPlain_number isFrame_componentHeader hn rfl rfl

theorem not_isClosingLine_componentHeader : ¬ IsClosingLine (componentHeader n) := by
  have hhead : (componentHeader n).head? = some 'e' := rfl
  refine not_isClosingLine (isFrame_componentHeader.isPlainCode hn) ?_
  rw [trim_componentHeader hn, hhead]
  decide

/-- The first line of a component declares the component. -/
theorem declaration?_componentHeader : Script.declaration? (componentHeader n).trim =
    some (some (.component, "UserCard".toList ++ n)) := by
  have hword : Text.takeWord ("UserCard".toList ++ n ++
      "(\x7b userId \x7d: \x7b userId: string \x7d) \x7b".toList) =
      some ("UserCard".toList ++ n,
        "(\x7b userId \x7d: \x7b userId: string \x7d) \x7b".toList) :=
    Text.takeWord_number hn (by decide) (by decide)
  have hdeclared : functionDeclaration? (componentHeader n) =
      (Text.takeWord ("UserCard".toList ++ n ++
        "(\x7b userId \x7d: \x7b userId: string \x7d) \x7b".toList)).bind fun r => some r.1 := rfl
  rw [hword, Option.bind_some] at hdeclared
  rw [trim_componentHeader hn, declaration?_of_functionDeclaration? rfl hdeclared]
  rfl

/-- The line that opens an element is plain, and the number in its literal does not count. -/
theorem isPlain_cardLine : IsPlain (cardLine n) where
  no_newline := Text.newline_not_mem_number hn (by decide) (by decide)
  not_type := rfl
  not_import := by
    have htrim : (cardLine n).trim = "<div className=\"card-".toList ++ n ++
        "\" onClick=\x7b() => setOpen(!open)\x7d>".toList := Text.trim_number hn _ _
    rw [htrim]
    rfl

theorem sameBrackets_cardLine : SameBrackets (cardLine n) (cardLine []) := by
  have hliteral : ∀ n : Text, cardLine n = "    <div className=".toList ++
      ('"' :: ("card-".toList ++ n) ++ '"' :: " onClick=\x7b() => setOpen(!open)\x7d>".toList) := by
    intro n
    unfold cardLine
    repeat rw [String.toList_ofList]
    rfl
  rw [hliteral, hliteral]
  exact sameBrackets_literal hn (by decide) (by decide) (by decide)

end Header

include hk hn

theorem isPlain_componentRest : ∀ line ∈ componentRest k n, IsPlain line := by
  have hprofile : IsPlain (profileLine k) := isPlain_number isFrame_profileLine hk rfl rfl
  exact List.forall_mem_cons.mpr ⟨hprofile, List.forall_mem_append.mpr ⟨isPlain_componentBody,
    List.forall_mem_cons.mpr ⟨isPlain_cardLine hn, isPlain_componentEnd⟩⟩⟩

/-- A component ends at its last line. -/
theorem reachFrom?_component : reachFrom? {} (componentHeader n :: componentRest k n) =
    some (componentRest k n).length := by
  have hsame : List.Forall₂ SameBrackets (componentHeader n :: componentRest k n)
      (componentHeader [] :: componentRest [] []) :=
    .cons (sameBrackets_number hn isFrame_componentHeader)
      (.cons (sameBrackets_number hk isFrame_profileLine)
        (List.rel_append (SameBrackets.forall₂_refl _)
          (.cons (sameBrackets_cardLine hn) (SameBrackets.forall₂_refl _))))
  have hlength : (componentRest k n).length = (componentRest [] []).length := rfl
  rw [reachFrom?_of_sameBrackets hsame, hlength]
  unfold componentHeader componentRest profileLine componentBody cardLine componentEnd
  repeat rw [String.toList_ofList]
  decide

end Component

/-- A component is cut into its imports and the component. -/
theorem kinds?_componentSource (extensions : List Text) (path : Text) (index : Nat) :
    (Script.chunker extensions).kinds? path (componentSource index) =
      some [.imports, .component] := by
  have hn := isNumber_ofNat index
  have hk := isNumber_ofNat (index % 7)
  have hstate : IsWholeImport "import \x7b useState \x7d from 'react';".toList := by
    rw [String.toList_ofList]
    decide
  have hprofile := isWholeImport_profileImport _ (Nat.mod_lt index (by decide : 7 > 0))
  have himports : ∀ line ∈ componentImports (Text.ofNat (index % 7)), IsWholeImport line :=
    List.forall_mem_cons.mpr ⟨hstate, List.forall_mem_singleton.mpr hprofile⟩
  rw [componentSource_eq]
  exact kinds?_of_imports extensions path (List.cons_ne_nil _ _) himports
    (List.forall_mem_cons.mpr ⟨isPlain_componentHeader hn, isPlain_componentRest hk hn⟩)
    (not_isClosingLine_componentHeader hn) (declaration?_componentHeader hn)
    (reachFrom?_component hk hn)

/-! ## Utilities -/

/-- The first line of the limits of a utility. -/
def limitsHeader (n : Text) : Text :=
  "export const LIMITS_".toList ++ n ++ " = \x7b".toList

/-- The other lines of the limits of a utility, with the size of a page. -/
def limitsRest (m : Text) : List Text :=
  ["  pageSize: ".toList ++ m ++ ",".toList, "  retries: 3,".toList, "\x7d;".toList]

/-- The first line of the function of a utility. -/
def formatHeader (n : Text) : Text :=
  "export const formatName".toList ++ n ++ " = (first: string, last: string) => \x7b".toList

/-- The other lines of the function of a utility. -/
def formatRest : List Text :=
  ["  return \x60$\x7bfirst\x7d $\x7blast\x7d\x60.trim();".toList, "\x7d;".toList]

theorem utilitySource_eq (index : Nat) : utilitySource index = Text.unlines
    (limitsHeader (Text.ofNat index) :: limitsRest (Text.ofNat (10 + index)) ++
      [] :: (formatHeader (Text.ofNat index) :: formatRest ++ [[]])) :=
  rfl

theorem isFrame_limitsHeader : IsFrame "export const LIMITS_".toList " = \x7b".toList := by
  rw [String.toList_ofList, String.toList_ofList]
  decide

theorem isFrame_pageSize : IsFrame "  pageSize: ".toList ",".toList := by
  rw [String.toList_ofList, String.toList_ofList]
  decide

theorem isFrame_formatHeader : IsFrame "export const formatName".toList
    " = (first: string, last: string) => \x7b".toList := by
  rw [String.toList_ofList, String.toList_ofList]
  decide

theorem isPlain_formatRest : ∀ line ∈ formatRest, IsPlain line := by
  unfold formatRest
  repeat rw [String.toList_ofList]
  decide

section Utility

variable {m n : Text} (hm : IsNumber m) (hn : IsNumber n)

section Header

include hn

theorem trim_limitsHeader : (limitsHeader n).trim = limitsHeader n :=
  Text.trim_number hn _ _

/-- The first line of the limits declares a constant. -/
theorem declaration?_limitsHeader : Script.declaration? (limitsHeader n).trim =
    some (some (.constant, "LIMITS_".toList ++ n)) := by
  have hword : Text.takeWord ("LIMITS_".toList ++ n ++ " = \x7b".toList) =
      some ("LIMITS_".toList ++ n, " = \x7b".toList) :=
    Text.takeWord_number hn (by decide) (by decide)
  have hbinding : ∀ others : List Text, binding? ("const".toList :: others) (limitsHeader n) =
      some ("LIMITS_".toList ++ n, "= \x7b".toList) := by
    intro others
    have hbound : binding? ("const".toList :: others) (limitsHeader n) =
        (Text.takeWord ("LIMITS_".toList ++ n ++ " = \x7b".toList)).bind
          fun r => some (r.1, r.2.trimStart) := rfl
    rw [hbound, hword]
    rfl
  have hdeclared : functionDeclaration? (limitsHeader n) = none := rfl
  have harrow : arrowBinding? (limitsHeader n) = none := by
    rw [arrowBinding?, hbinding]
    rfl
  have hexpression : functionBinding? (limitsHeader n) = none := by
    rw [functionBinding?, hbinding]
    rfl
  have hfunction : functionName? (limitsHeader n) = none := by
    rw [functionName?, hdeclared, harrow, hexpression]
    rfl
  have hliteral : literalConstant? (limitsHeader n) = some ("LIMITS_".toList ++ n) := by
    rw [literalConstant?, hbinding]
    rfl
  rw [trim_limitsHeader hn, declaration?_of_constant rfl hfunction hliteral]

theorem trim_formatHeader : (formatHeader n).trim = formatHeader n :=
  Text.trim_number hn _ _

/-- The first line of the function declares it. -/
theorem declaration?_formatHeader : Script.declaration? (formatHeader n).trim =
    some (some (.function, "formatName".toList ++ n)) := by
  have hword : Text.takeWord
      ("formatName".toList ++ n ++ " = (first: string, last: string) => \x7b".toList) =
      some ("formatName".toList ++ n, " = (first: string, last: string) => \x7b".toList) :=
    Text.takeWord_number hn (by decide) (by decide)
  have hbinding : binding? ["const".toList, "let".toList] (formatHeader n) =
      some ("formatName".toList ++ n, "= (first: string, last: string) => \x7b".toList) := by
    have hbound : binding? ["const".toList, "let".toList] (formatHeader n) =
        (Text.takeWord
          ("formatName".toList ++ n ++ " = (first: string, last: string) => \x7b".toList)).bind
          fun r => some (r.1, r.2.trimStart) := rfl
    rw [hbound, hword]
    rfl
  have hdeclared : functionDeclaration? (formatHeader n) = none := rfl
  have hcontains :
      Text.contains " (first: string, last: string) => \x7b".toList "=>".toList = true := by
    rw [String.toList_ofList, String.toList_ofList]
    decide
  have harrow : arrowBinding? (formatHeader n) = some ("formatName".toList ++ n) :=
    arrowBinding?_of_binding? hbinding rfl hcontains
  have hname : functionName? (formatHeader n) = some ("formatName".toList ++ n) := by
    rw [functionName?, hdeclared, harrow]
    rfl
  rw [trim_formatHeader hn, declaration?_of_function rfl hname]
  rfl

theorem isPlain_format : ∀ line ∈ formatHeader n :: formatRest, IsPlain line :=
  List.forall_mem_cons.mpr ⟨isPlain_number isFrame_formatHeader hn rfl rfl, isPlain_formatRest⟩

/-- The function ends at its last line. -/
theorem reachFrom?_format : reachFrom? {} (formatHeader n :: formatRest) =
    some formatRest.length := by
  have hsame : List.Forall₂ SameBrackets (formatHeader n :: formatRest)
      (formatHeader [] :: formatRest) :=
    .cons (sameBrackets_number hn isFrame_formatHeader) (SameBrackets.forall₂_refl _)
  rw [reachFrom?_of_sameBrackets hsame]
  unfold formatHeader formatRest
  repeat rw [String.toList_ofList]
  decide

end Header

include hm hn

theorem isPlain_limits : ∀ line ∈ limitsHeader n :: limitsRest m, IsPlain line := by
  have hend : ∀ line ∈ ["  retries: 3,".toList, "\x7d;".toList], IsPlain line := by
    repeat rw [String.toList_ofList]
    decide
  have hheader : IsPlain (limitsHeader n) := isPlain_number isFrame_limitsHeader hn rfl rfl
  have hsize : IsPlain ("  pageSize: ".toList ++ m ++ ",".toList) :=
    isPlain_number isFrame_pageSize hm rfl rfl
  exact List.forall_mem_cons.mpr ⟨hheader, List.forall_mem_cons.mpr ⟨hsize, hend⟩⟩

/-- The limits end at their last line. -/
theorem reachFrom?_limits : reachFrom? {} (limitsHeader n :: limitsRest m) =
    some (limitsRest m).length := by
  have hsame : List.Forall₂ SameBrackets (limitsHeader n :: limitsRest m)
      (limitsHeader [] :: limitsRest []) :=
    .cons (sameBrackets_number hn isFrame_limitsHeader)
      (.cons (sameBrackets_number hm isFrame_pageSize) (SameBrackets.forall₂_refl _))
  have hlength : (limitsRest m).length = (limitsRest []).length := rfl
  rw [reachFrom?_of_sameBrackets hsame, hlength]
  unfold limitsHeader limitsRest
  repeat rw [String.toList_ofList]
  decide

end Utility

/-- A utility is cut into its limits and its function. -/
theorem kinds?_utilitySource (extensions : List Text) (path : Text) (index : Nat) :
    (Script.chunker extensions).kinds? path (utilitySource index) =
      some [.constant, .function] := by
  have hn := isNumber_ofNat index
  have hm := isNumber_ofNat (10 + index)
  rw [utilitySource_eq]
  exact kinds?_of_blocks extensions path (isPlain_limits hm hn) (isPlain_format hn)
    (declaration?_limitsHeader hn) (reachFrom?_limits hm hn) (declaration?_formatHeader hn)
    (reachFrom?_format hn)

/-! ## Stylesheets -/

/-- The first line of a rule set for a layer. -/
def layerHeader : Text :=
  "@layer base \x7b".toList

/-- The first line of a rule set for wide screens. -/
def mediaHeader : Text :=
  "@media (min-width: 640px) \x7b".toList

/-- The other lines of a rule set, with the style of a card. -/
def cardRule (n style : Text) : List Text :=
  ["  .card-".toList ++ n ++ style, "\x7d".toList]

theorem stylesheetSource_eq (index : Nat) : stylesheetSource index = Text.unlines
    (layerHeader :: cardRule (Text.ofNat index) " \x7b padding: 1rem; \x7d".toList ++
      [] :: (mediaHeader :: cardRule (Text.ofNat index) " \x7b padding: 2rem; \x7d".toList ++
        [[]])) :=
  rfl

theorem isFrame_cardRule : ∀ style ∈
    [" \x7b padding: 1rem; \x7d".toList, " \x7b padding: 2rem; \x7d".toList],
    IsFrame "  .card-".toList style := by
  repeat rw [String.toList_ofList]
  decide

section CardRule

variable {n header style : Text} (hn : IsNumber n) (hframe : IsFrame "  .card-".toList style)
include hn hframe

theorem newline_not_mem_cardRule (hheader : '\n' ∉ header) :
    ∀ line ∈ header :: cardRule n style, '\n' ∉ line := by
  have hstyle : '\n' ∉ "  .card-".toList ++ n ++ style := fun hmem =>
    absurd (List.all_eq_true.mp (hframe.isPlainCode hn) _ hmem) (by decide)
  exact List.forall_mem_cons.mpr ⟨hheader, List.forall_mem_cons.mpr
    ⟨hstyle, List.forall_mem_singleton.mpr (by decide)⟩⟩

/-- A rule set with the style of a card ends at its last line if it does so without the number. -/
theorem reachFrom?_cardRule (hreach : reachFrom? {} (header :: cardRule [] style) = some 2) :
    reachFrom? {} (header :: cardRule n style) = some 2 := by
  have hsame : List.Forall₂ SameBrackets (header :: cardRule n style)
      (header :: cardRule [] style) :=
    .cons (.refl _) (.cons (sameBrackets_number hn hframe) (SameBrackets.forall₂_refl _))
  rw [reachFrom?_of_sameBrackets hsame, hreach]

end CardRule

theorem reachFrom?_layer :
    reachFrom? {} (layerHeader :: cardRule [] " \x7b padding: 1rem; \x7d".toList) = some 2 := by
  unfold layerHeader cardRule
  repeat rw [String.toList_ofList]
  decide

theorem reachFrom?_media :
    reachFrom? {} (mediaHeader :: cardRule [] " \x7b padding: 2rem; \x7d".toList) = some 2 := by
  unfold mediaHeader cardRule
  repeat rw [String.toList_ofList]
  decide

theorem ruleSet?_layerHeader : Stylesheet.ruleSet? layerHeader = some "@layer base".toList := by
  unfold layerHeader
  repeat rw [String.toList_ofList]
  decide

theorem ruleSet?_mediaHeader : Stylesheet.ruleSet? mediaHeader = some "@media".toList := by
  unfold mediaHeader
  repeat rw [String.toList_ofList]
  decide

/-- A stylesheet is cut into its rule sets. -/
theorem kinds?_stylesheetSource (extensions : List Text) (path : Text) (index : Nat) :
    (Stylesheet.chunker extensions).kinds? path (stylesheetSource index) =
      some [.style, .style] := by
  have hn := isNumber_ofNat index
  have hone := isFrame_cardRule _ List.mem_cons_self
  have htwo := isFrame_cardRule _ (List.mem_cons_of_mem _ List.mem_cons_self)
  have hempty : '\n' ∉ ([] : Text) := List.not_mem_nil
  rw [stylesheetSource_eq]
  refine Stylesheet.kinds?_of_blocks extensions path ?_ rfl ruleSet?_layerHeader
    (reachFrom?_cardRule hn hone reachFrom?_layer) ruleSet?_mediaHeader
    (reachFrom?_cardRule hn htwo reachFrom?_media)
  exact List.forall_mem_append.mpr ⟨newline_not_mem_cardRule hn hone (by decide),
    List.forall_mem_cons.mpr ⟨hempty, List.forall_mem_append.mpr
      ⟨newline_not_mem_cardRule hn htwo (by decide), List.forall_mem_singleton.mpr hempty⟩⟩⟩

/-! ## Migrations -/

/-- The statement of a migration that creates a table. -/
def tableStatement (n : Text) : Text :=
  "CREATE TABLE IF NOT EXISTS profiles_".toList ++ n ++
    Text.unlines [" (".toList, "  id uuid primary key,".toList, "  name text not null".toList,
      ")".toList]

/-- The statement of a migration that creates an index, below a blank line. -/
def indexStatement (n : Text) : Text :=
  '\n' :: ("CREATE INDEX profiles_".toList ++ n ++ "_name ON profiles_".toList ++ n ++
    " (name)".toList)

/-- Two statements at the ends of lines, the first on four lines and the second below a blank one. -/
theorem unlines_statements (a n b second third last c d : Text) :
    Text.unlines [a ++ n ++ b, second, third, last ++ [';'], [], c ++ (d ++ [';']), []] =
      a ++ n ++ Text.unlines [b, second, third, last] ++ ';' :: '\n' ::
        ('\n' :: (c ++ d) ++ [';', '\n']) := by
  simp [Text.unlines, List.intercalate]

theorem migrationSource_eq (index : Nat) : migrationSource index =
    tableStatement (Text.ofNat index) ++ ';' :: '\n' ::
      (indexStatement (Text.ofNat index) ++ [';', '\n']) :=
  unlines_statements _ (Text.ofNat index) " (".toList "  id uuid primary key,".toList
    "  name text not null".toList ")".toList
    ("CREATE INDEX profiles_".toList ++ Text.ofNat index ++ "_name ON profiles_".toList ++
      Text.ofNat index) " (name)".toList

/-- A migration is cut into its statements. -/
theorem kinds?_migrationSource (extensions : List Text) (path : Text) (index : Nat) :
    (QueryFile.chunker extensions).kinds? path (migrationSource index) =
      some [.query, .query] := by
  have hn := isNumber_ofNat index
  have hnone : decimalDigits.all (· != ';') = true := by decide
  have htable : (tableStatement (Text.ofNat index)).all (· != ';') = true :=
    hn.all_append hnone (by decide) (by decide)
  have hindex : (indexStatement (Text.ofNat index)).all (· != ';') = true :=
    hn.all_append hnone (hn.all_append hnone (by decide) (by decide)) (by decide)
  have hends : ∀ s : Text, s.all (· != ';') = true → ';' ∉ s := by
    intro s hs hmem
    exact absurd (List.all_eq_true.mp hs _ hmem) (by decide)
  rw [migrationSource_eq]
  exact QueryFile.kinds?_of_statements extensions path (hends _ htable) (hends _ hindex) rfl rfl

end Benchmark.Profile

end SourceIndex
