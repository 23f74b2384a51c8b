import SourceIndex.Issue
import SourceIndex.Proofs.Infix

/-!
# What a finding finds

Every finding in a line is about a text that occurs in the line: the name of an unused import is part
of the import, and the other findings are tests for words. Issues and references are found in single
lines of chunks, each under the number of its line.
-/

namespace SourceIndex

/-! ## Imported names -/

namespace ImportClause

variable {s name rest : Text}

/-- The items between braces are part of the clause. -/
theorem infix_of_braced? {items : Text} (h : braced? s = some (items, rest)) : items <:+: s := by
  unfold braced? at h
  split at h
  · rename_i inner
    split at h
    · rename_i more hspan
      cases h
      rw [List.span_eq_takeWhile_dropWhile, Prod.mk.injEq] at hspan
      rw [← hspan.1]
      exact List.infix_cons (List.takeWhile_prefix _).isInfix
    · cases h
  · cases h

/-- The name of a namespace import is not empty and part of the clause. -/
theorem of_namespace?_eq_some (h : namespace? s = some (name, rest)) : name ≠ [] ∧ name <:+: s := by
  simp only [namespace?, Option.bind_eq_bind, Option.bind_eq_some_iff] at h
  obtain ⟨afterStar, hstar, afterAs, has, afterBlanks, hblanks, hword⟩ := h
  have hsuffix : afterBlanks <:+ s :=
    (Text.suffix_of_afterBlanks? hblanks).trans <| (Text.suffix_of_after? has).trans <|
      (Text.trimStart_suffix afterStar).trans (Text.suffix_of_after? hstar)
  exact ⟨(Text.of_takeWord_eq_some hword).2.1,
    (Text.infix_of_takeWord hword).1.trans hsuffix.isInfix⟩

/-- What stands behind the last separator is the end of the text. -/
theorem suffix_of_afterLast? {separator : Text} (h : afterLast? separator s = some rest) :
    rest <:+ s := by
  induction s with
  | nil => cases h
  | cons c s ih =>
    rcases Option.or_eq_some_iff.mp h with h | ⟨-, h⟩
    · exact (ih h).trans (List.suffix_cons c s)
    · exact Text.suffix_of_after? h

/-- The local name of an item is part of the item. -/
theorem infix_itemName (item : Text) : itemName item <:+: item := by
  have halias : ∀ t, t <:+: item → ∀ localName, afterLast? " as ".toList t = some localName →
      localName.trim <:+: item := fun t ht localName hlast =>
    (Text.infix_trim localName).trans ((suffix_of_afterLast? hlast).isInfix.trans ht)
  have hitem : item.trim <:+: item := Text.infix_trim item
  rw [itemName]
  cases htype : item.trim.after? "type ".toList with
  | none =>
    dsimp only
    split
    · rename_i localName hlast
      exact halias item.trim hitem localName hlast
    · exact hitem
  | some rest =>
    have hrest : rest.trim <:+: item :=
      (Text.infix_trim rest).trans ((Text.suffix_of_after? htype).isInfix.trans hitem)
    dsimp only
    split
    · rename_i localName hlast
      exact halias rest.trim hrest localName hlast
    · exact hrest

/-- The names of the items between braces are not empty and part of what stands there. -/
theorem of_mem_itemNames {items : Text} (h : name ∈ itemNames items) :
    name ≠ [] ∧ name <:+: items := by
  obtain ⟨hmem, hne⟩ := List.mem_filter.mp h
  obtain ⟨item, hitem, rfl⟩ := List.mem_map.mp hmem
  exact ⟨by simpa using hne, (infix_itemName item).trans (Text.infix_of_mem_splitOn hitem)⟩

/-- The default name is a part of the clause, and the clause goes on behind it. -/
theorem of_defaultName (s : Text) :
    (∀ name ∈ (defaultName s).1, name ≠ [] ∧ name <:+: s) ∧ (defaultName s).2 <:+ s := by
  rw [defaultName]
  split
  · simp
  · rename_i word rest hword
    obtain ⟨hwithin, hrest⟩ := Text.infix_of_takeWord hword
    obtain ⟨-, hne, -⟩ := Text.of_takeWord_eq_some hword
    constructor
    · intro name hname
      split at hname
      · cases hname
      · rw [List.mem_singleton.mp hname]
        exact ⟨hne, hwithin⟩
    · have hcomma : (rest.trimStart.after? [',']).getD rest.trimStart <:+ rest.trimStart := by
        cases hafter : rest.trimStart.after? [','] with
        | none => exact List.suffix_refl _
        | some r => exact Text.suffix_of_after? hafter
      exact (Text.trimStart_suffix _).trans
        (hcomma.trans ((Text.trimStart_suffix rest).trans hrest))

/-- The names that a clause binds are not empty and part of the clause. -/
theorem of_mem_names (h : name ∈ names s) : name ≠ [] ∧ name <:+: s := by
  have hskip := Text.skipWord_suffix s "type".toList
  obtain ⟨hdefault, hrest⟩ := of_defaultName (s.skipWord "type".toList)
  rw [names] at h
  generalize defaultName (s.skipWord "type".toList) = parts at h hdefault hrest
  obtain ⟨default, more⟩ := parts
  have hmore : ∀ part, part <:+: more → part <:+: s := fun part hpart =>
    hpart.trans (hrest.trans hskip).isInfix
  have hfirst : name ∈ default → name ≠ [] ∧ name <:+: s := fun hname =>
    ⟨(hdefault name hname).1, (hdefault name hname).2.trans hskip.isInfix⟩
  dsimp only at h
  split at h
  · rename_i items _ hbraced
    rcases List.mem_append.mp h with h | h
    · exact hfirst h
    · obtain ⟨hne, hwithin⟩ := of_mem_itemNames h
      exact ⟨hne, hmore _ (hwithin.trans (infix_of_braced? hbraced))⟩
  · split at h
    · rename_i word _ hnamespace
      rcases List.mem_append.mp h with h | h
      · exact hfirst h
      · obtain ⟨hne, hwithin⟩ := of_namespace?_eq_some hnamespace
        rw [List.mem_singleton.mp h]
        exact ⟨hne, hmore _ hwithin⟩
    · exact hfirst h

end ImportClause

/-- The names that a line imports are not empty and part of the line. -/
theorem of_mem_boundNames {line name : Text} (h : name ∈ boundNames line) :
    name ≠ [] ∧ name <:+: line := by
  rw [boundNames] at h
  split at h
  · rename_i clause hclause
    obtain ⟨t, rest, ht, hstart⟩ := Pattern.exists_suffix_of_find? hclause
    simp only [ImportClause.start, Option.bind_eq_bind, Option.bind_eq_some_iff,
      Option.some.injEq, Prod.mk.injEq] at hstart
    obtain ⟨afterImport, himport, afterBlanks, hblanks, rfl, -⟩ := hstart
    have hsuffix : afterBlanks <:+ line :=
      (Text.suffix_of_afterBlanks? hblanks).trans ((Text.suffix_of_after? himport).trans ht)
    obtain ⟨hne, hwithin⟩ := ImportClause.of_mem_names h
    exact ⟨hne, hwithin.trans hsuffix.isInfix⟩
  · cases h

/-! ## Findings in lines -/

/-- What triggers a finding occurs in the line. -/
def Finding.OccursIn (line : Text) : Finding → Prop
  | consoleLog => "console.log".toList <:+: line
  | anyType => ": any".toList <:+: line ∨ "<any>".toList <:+: line
  | marker _ => ∃ m ∈ Issue.markers, m <:+: line
  | unusedImport name => name ≠ [] ∧ name <:+: line
  | imageWithoutText => "<img".toList <:+: line
  | clickableContainer => "<div".toList <:+: line ∧ "onClick".toList <:+: line

/-- What occurs in a part of a line occurs in the line. -/
theorem Finding.OccursIn.of_part {f : Finding} {line whole : Text} (h : f.OccursIn line)
    (hpart : line <:+: whole) : f.OccursIn whole := by
  cases f with
  | consoleLog | imageWithoutText => exact List.IsInfix.trans h hpart
  | anyType => exact h.imp (·.trans hpart) (·.trans hpart)
  | marker =>
    obtain ⟨m, hm, hline⟩ := h
    exact ⟨m, hm, hline.trans hpart⟩
  | unusedImport => exact ⟨h.1, h.2.trans hpart⟩
  | clickableContainer => exact ⟨h.1.trans hpart, h.2.trans hpart⟩

namespace Issue

/-- A finding in a line has its trigger there. -/
theorem occursIn_of_mem_findings {bodies : List Text} {kind : Chunk.Kind} {isMarkup : Bool}
    {line : Text} {f : Finding} (h : f ∈ findings bodies kind isMarkup line) : f.OccursIn line := by
  simp only [findings, lineFindings, unusedImports, markupFindings, List.mem_append,
    List.mem_ite_nil_right, Bool.and_eq_true, Bool.or_eq_true, Text.contains_iff,
    List.mem_singleton, List.mem_map, List.mem_filter] at h
  rcases h with (((⟨⟨hlog, -⟩, rfl⟩ | ⟨hany, rfl⟩) | ⟨hmarker, rfl⟩) |
    ⟨-, name, ⟨hname, -⟩, rfl⟩) | ⟨-, ⟨⟨himage, -⟩, rfl⟩ | ⟨hcontainer, rfl⟩⟩
  · exact hlog
  · exact hany
  · obtain ⟨m, hm, hline⟩ := List.any_eq_true.mp hmarker
    exact ⟨m, hm, Text.contains_iff.mp hline⟩
  · exact of_mem_boundNames hname
  · exact himage
  · exact hcontainer

/-- An issue of a chunk is a finding in one of its lines, under the number of the line. -/
theorem exists_line_of_mem_inChunk {bodies : List Text} {c : Chunk} {issue : Issue}
    (h : issue ∈ inChunk bodies c) :
    issue.path = c.path ∧ ∃ i line, c.content.lines[i]? = some line ∧
      issue.line = c.startLine + (i : Nat) ∧ issue.finding.OccursIn line := by
  obtain ⟨numbered, hnumbered, hissue⟩ := List.mem_flatMap.mp h
  obtain ⟨f, hf, rfl⟩ := List.mem_map.mp hissue
  obtain ⟨⟨line, i⟩, hline, rfl⟩ := List.mem_map.mp hnumbered
  exact ⟨rfl, i, line, List.mem_zipIdx_iff_getElem?.mp hline, rfl, occursIn_of_mem_findings hf⟩

end Issue

/-! ## References -/

namespace Snapshot

/-- The references of a name in a chunk are its lines with the name, under their numbers. -/
theorem referencesIn_eq (name : Text) (c : Chunk) :
    referencesIn name c =
      (c.content.lines.zipIdx.filter fun numbered => name <:+: numbered.1).map fun numbered =>
        { path := c.path, line := c.startLine + numbered.2, context := numbered.1.trim } := by
  rw [referencesIn, Chunk.numberedLines, List.filter_map, List.map_map]
  congr 1
  refine List.filter_congr fun numbered _ => ?_
  exact Bool.eq_iff_iff.mpr (Text.contains_iff.trans decide_eq_true_iff.symm)

/-- A chunk whose text does not have a name has no references of it. -/
theorem referencesIn_eq_nil {name : Text} {c : Chunk} (h : c.content.contains name = false) :
    referencesIn name c = [] := by
  rw [referencesIn_eq, List.map_eq_nil_iff, List.filter_eq_nil_iff]
  intro numbered hnumbered hline
  have hlines : numbered.1 ∈ c.content.lines :=
    List.mem_of_getElem? (List.mem_zipIdx_iff_getElem?.mp hnumbered)
  have hcontent : name <:+: c.content :=
    (of_decide_eq_true hline).trans (Text.infix_of_mem_splitOn hlines)
  rw [Text.contains_iff.mpr hcontent] at h
  cases h

/-- The references of a name are the lines of chunks with the name, in the order of the chunks, then
of their lines: the chunks that are passed over have no such line. -/
theorem references_eq (s : Snapshot) {name : Text} (hname : name ≠ []) :
    s.references name = s.chunks.flatMap fun c =>
      (c.content.lines.zipIdx.filter fun numbered => name <:+: numbered.1).map fun numbered =>
        { path := c.path, line := c.startLine + numbered.2, context := numbered.1.trim } := by
  rw [references, if_neg (by simpa using hname)]
  simp only [← referencesIn_eq]
  induction s.chunks with
  | nil => rfl
  | cons c chunks ih =>
    rw [List.filter_cons, List.flatMap_cons]
    split
    · rw [List.flatMap_cons, ih]
    · rename_i hcontains
      rw [ih, referencesIn_eq_nil (Bool.eq_false_iff.mpr hcontains), List.nil_append]

end Snapshot

end SourceIndex
