import SourceIndex.Chunker.Script
import SourceIndex.Proofs.Infix

/-!
# The first run of imports

The scan for the imports of a script starts at the first line that is an import. It remembers the last
line that it knows to belong to the run and whether an import is still open: one whose line opens a brace
without closing it. `Looked` says what these two mean for the lines looked at so far, one lemma for each
way a line can be taken. The scan ends with the first run, and the run is determined by what it is: it
contains nothing but imports, ends of imports, blank lines and lines inside an open import, and it goes
on as far as this allows, but for blank lines at its end.
-/

namespace SourceIndex

namespace Script

/-- A line starts an import, apart from the blanks at its ends. -/
def IsImportLine (line : Text) : Prop :=
  "import ".toList <+: line.trim ∨ "import\x7b".toList <+: line.trim

/-- A line ends an import, apart from the blanks at its ends: it starts with a closing brace or names a
module. -/
def IsClosingLine (line : Text) : Prop :=
  ['}'] <+: line.trim ∨ "from '".toList <:+: line.trim ∨ "from \"".toList <:+: line.trim

/-- A line starts an import and opens a brace without closing one. -/
def OpensImport (line : Text) : Prop :=
  IsImportLine line ∧ '{' ∈ line ∧ '}' ∉ line

/-- Line `i` stands inside an import that a line above it opens: no line between the two has a closing
brace. The first line below with such a brace is still inside, those behind it are not. -/
def InsideImport (lines : List Text) (i : Nat) : Prop :=
  ∃ j opener, j < i ∧ lines[j]? = some opener ∧ OpensImport opener ∧
    ∀ k line, j < k → k < i → lines[k]? = some line → '}' ∉ line

/-- Line `i` may stand in a run of imports. -/
def BelongsToRun (lines : List Text) (i : Nat) : Prop :=
  ∀ line, lines[i]? = some line →
    IsImportLine line ∨ IsClosingLine line ∨ line.isBlank = true ∨ InsideImport lines i

/-- The first import of a script is line `first`: no line above it is an import. -/
structure IsFirstImport (lines : List Text) (first : Nat) : Prop where
  isImport : ∃ line, lines[first]? = some line ∧ IsImportLine line
  least : ∀ i line, i < first → lines[i]? = some line → ¬ IsImportLine line

/-- The first run of imports of a script goes from line `first` to line `last`. It starts at the
first import, lies within the script, and nothing else stands in it. It does not end with a blank
line, unless an import is open there. An import is open below it only if it is never closed, and
then the run is all that is left. The first line below it that is not blank is neither an import nor
the end of one. -/
structure IsImportRun (lines : List Text) (first last : Nat) : Prop where
  isFirst : IsFirstImport lines first
  le : first ≤ last
  lt : last < lines.length
  belongs : ∀ i, first ≤ i → i ≤ last → BelongsToRun lines i
  not_blank : ∀ line, lines[last]? = some line → line.isBlank = true → InsideImport lines last
  open_to_end : InsideImport lines (last + 1) → last + 1 = lines.length
  maximal : ∀ i line, last < i → lines[i]? = some line → line.isBlank = false →
    (∀ k between, last < k → k < i → lines[k]? = some between → between.isBlank = true) →
      ¬ IsImportLine line ∧ ¬ IsClosingLine line

/-! ## Lines -/

theorem startsImport_iff {line : Text} : startsImport line.trim = true ↔ IsImportLine line := by
  rw [startsImport, Bool.or_eq_true, Text.startsWith, Text.startsWith, List.isPrefixOf_iff_prefix,
    List.isPrefixOf_iff_prefix, IsImportLine]

theorem closesImport_iff {line : Text} : closesImport line.trim = true ↔ IsClosingLine line := by
  rw [closesImport, Bool.or_eq_true, Bool.or_eq_true, Text.startsWith, List.isPrefixOf_iff_prefix,
    Text.contains_iff, Text.contains_iff, or_assoc, IsClosingLine]

/-- Trimming keeps a brace. -/
theorem contains_trim_iff {line : Text} {c : Char} (hc : isBlankChar c = false) :
    line.trim.contains [c] = true ↔ c ∈ line := by
  rw [Text.contains_iff, List.singleton_infix_iff, Text.mem_trim_iff hc]

theorem opensImport_iff {line : Text} (h : IsImportLine line) :
    leavesOpen line.trim = true ↔ OpensImport line := by
  rw [leavesOpen, Bool.and_eq_true, Bool.not_eq_true', ← Bool.not_eq_true,
    contains_trim_iff (by decide), contains_trim_iff (by decide), OpensImport]
  exact (and_iff_right h).symm

/-- An import is not blank. -/
theorem IsImportLine.isBlank_eq_false {line : Text} (h : IsImportLine line) :
    line.isBlank = false := by
  rw [← Bool.not_eq_true]
  intro hblank
  rw [IsImportLine, Text.trim_eq_nil hblank, List.prefix_nil, List.prefix_nil] at h
  revert h
  decide

/-! ## Open imports -/

section Open

variable {lines : List Text} {i : Nat}

/-- An import is open below a line if the line opens it or if one was open there and the line does not
close it. -/
theorem insideImport_succ {line : Text} (hline : lines[i]? = some line) :
    InsideImport lines (i + 1) ↔ OpensImport line ∨ InsideImport lines i ∧ '}' ∉ line := by
  constructor
  · rintro ⟨j, opener, hj, hopener, hopens, hbetween⟩
    rcases Nat.lt_succ_iff_lt_or_eq.mp hj with hlt | rfl
    · exact .inr ⟨⟨j, opener, hlt, hopener, hopens, fun k line' hjk hki =>
        hbetween k line' hjk (Nat.lt_succ_of_lt hki)⟩, hbetween i line hlt (Nat.lt_succ_self i) hline⟩
    · rw [hline, Option.some.injEq] at hopener
      exact .inl (hopener ▸ hopens)
  · rintro (hopens | ⟨⟨j, opener, hlt, hopener, hopens, hbetween⟩, hopen⟩)
    · exact ⟨i, line, Nat.lt_succ_self i, hline, hopens, fun k _ hik hki =>
        absurd hik (Nat.not_lt.mpr (Nat.le_of_lt_succ hki))⟩
    · refine ⟨j, opener, Nat.lt_succ_of_lt hlt, hopener, hopens, fun k line' hjk hki hk => ?_⟩
      rcases Nat.lt_succ_iff_lt_or_eq.mp hki with hki | rfl
      · exact hbetween k line' hjk hki hk
      · rw [hline, Option.some.injEq] at hk
        exact hk ▸ hopen

/-- No import is open above the first one. -/
theorem IsFirstImport.not_insideImport (h : IsFirstImport lines i) : ¬ InsideImport lines i := by
  rintro ⟨j, opener, hj, hopener, hopens, -⟩
  exact h.least j opener hj hopener hopens.1

/-- An import that is open below blank lines is so above them. -/
theorem insideImport_of_blanks {i' : Nat} (hle : i ≤ i')
    (hblank : ∀ k line, i ≤ k → k < i' → lines[k]? = some line → line.isBlank = true) :
    InsideImport lines i' ↔ InsideImport lines i := by
  constructor
  · rintro ⟨j, opener, hj, hopener, hopens, hbetween⟩
    have hji : j < i := by
      by_contra hge
      have hopener' := hblank j opener (Nat.le_of_not_lt hge) hj hopener
      rw [hopens.1.isBlank_eq_false] at hopener'
      cases hopener'
    exact ⟨j, opener, hji, hopener, hopens, fun k line hjk hki =>
      hbetween k line hjk (Nat.lt_of_lt_of_le hki hle)⟩
  · rintro ⟨j, opener, hj, hopener, hopens, hbetween⟩
    refine ⟨j, opener, Nat.lt_of_lt_of_le hj hle, hopener, hopens, fun k line hjk hki hk => ?_⟩
    rcases Nat.lt_or_ge k i with hlt | hge
    · exact hbetween k line hjk hlt hk
    · exact Text.not_mem_of_isBlank (hblank k line hge hki hk) (by decide)

end Open

/-! ## The scan -/

/-- What is known when the lines from `first` up to `index` have been looked at: the run goes on to line
`last` at least, only blank lines follow there, and `isOpen` tells whether an import is open. -/
structure Looked (lines : List Text) (first : Nat) (isOpen : Bool) (last index : Nat) : Prop where
  le : first ≤ last
  lt : last < index
  index_le : index ≤ lines.length
  belongs : ∀ i, first ≤ i → i ≤ last → BelongsToRun lines i
  not_blank : ∀ line, lines[last]? = some line → line.isBlank = true → InsideImport lines last
  blank : ∀ i line, last + 1 ≤ i → i < index → lines[i]? = some line → line.isBlank = true
  isOpen_iff : isOpen = true ↔ InsideImport lines index
  eq_of_isOpen : isOpen = true → last + 1 = index

namespace Looked

variable {lines : List Text} {first last index : Nat} {isOpen isOpen' : Bool} {line : Text}

/-- Everything looked at may stand in the run. -/
theorem belongs_of_lt (h : Looked lines first isOpen last index) {i : Nat} (hfirst : first ≤ i)
    (hi : i < index) : BelongsToRun lines i := by
  rcases Nat.lt_or_ge last i with hlt | hge
  · exact fun line hline => .inr (.inr (.inl (h.blank i line hlt hi hline)))
  · exact h.belongs i hfirst hge

/-- A line that is an import, the end of one or inside an open one extends the run. -/
theorem extend (h : Looked lines first isOpen last index) (hline : lines[index]? = some line)
    (hbelongs : BelongsToRun lines index) (hblank : line.isBlank = true → InsideImport lines index)
    (hopen : isOpen' = true ↔ InsideImport lines (index + 1)) :
    Looked lines first isOpen' index (index + 1) where
  le := Nat.le_trans h.le (Nat.le_of_lt h.lt)
  lt := Nat.lt_succ_self index
  index_le := (List.getElem?_eq_some_iff.mp hline).1
  belongs := by
    intro i hfirst hi
    rcases Nat.lt_or_eq_of_le hi with hlt | rfl
    · exact h.belongs_of_lt hfirst hlt
    · exact hbelongs
  not_blank := by
    intro line' hline'
    rw [hline, Option.some.injEq] at hline'
    exact hline' ▸ hblank
  blank := fun i _ hindex hi => absurd hi (Nat.not_lt.mpr hindex)
  isOpen_iff := hopen
  eq_of_isOpen := fun _ => rfl

/-- A blank line outside of imports leaves the run as it is. -/
theorem pass (h : Looked lines first false last index) (hline : lines[index]? = some line)
    (hblank : line.isBlank = true) : Looked lines first false last (index + 1) where
  le := h.le
  lt := Nat.lt_succ_of_lt h.lt
  index_le := (List.getElem?_eq_some_iff.mp hline).1
  belongs := h.belongs
  not_blank := h.not_blank
  blank := by
    intro i line' hlast hi hline'
    rcases Nat.lt_succ_iff_lt_or_eq.mp hi with hlt | rfl
    · exact h.blank i line' hlast hlt hline'
    · rw [hline, Option.some.injEq] at hline'
      exact hline' ▸ hblank
  isOpen_iff := by
    rw [h.isOpen_iff]
    refine (insideImport_of_blanks (Nat.le_succ index) fun k line' hindex hk hline' => ?_).symm
    obtain rfl : k = index := Nat.le_antisymm (Nat.le_of_lt_succ hk) hindex
    rw [hline, Option.some.injEq] at hline'
    exact hline' ▸ hblank
  eq_of_isOpen := fun hfalse => absurd hfalse Bool.false_ne_true

/-- Inside an open import every line belongs to the run. -/
theorem inside (h : Looked lines first true last index) (hline : lines[index]? = some line) :
    Looked lines first (!line.trim.contains ['}']) index (index + 1) := by
  have hinside : InsideImport lines index := h.isOpen_iff.mp rfl
  refine h.extend hline (fun _ _ => .inr (.inr (.inr hinside))) (fun _ => hinside) ?_
  rw [Bool.not_eq_true', ← Bool.not_eq_true, contains_trim_iff (by decide), insideImport_succ hline]
  exact ⟨fun hopen => .inr ⟨hinside, hopen⟩, fun h => h.elim (fun hopens => hopens.2.2) And.right⟩

/-- No import is open if none was left open. -/
theorem not_insideImport (h : Looked lines first false last index) : ¬ InsideImport lines index :=
  fun hinside => Bool.false_ne_true (h.isOpen_iff.mpr hinside)

/-- An import belongs to the run. -/
theorem isImport (h : Looked lines first false last index) (hline : lines[index]? = some line)
    (himport : IsImportLine line) : Looked lines first (leavesOpen line.trim) index (index + 1) := by
  refine h.extend hline ?_ ?_ ?_
  · intro line' hline'
    rw [hline, Option.some.injEq] at hline'
    exact .inl (hline' ▸ himport)
  · rw [himport.isBlank_eq_false]
    exact fun hfalse => absurd hfalse Bool.false_ne_true
  · rw [opensImport_iff himport, insideImport_succ hline]
    exact ⟨.inl, fun hopen => hopen.resolve_right fun hinside => h.not_insideImport hinside.1⟩

/-- The end of an import belongs to the run. -/
theorem isClosing (h : Looked lines first false last index) (hline : lines[index]? = some line)
    (himport : ¬ IsImportLine line) (hblank : line.isBlank = false) (hcloses : IsClosingLine line) :
    Looked lines first false index (index + 1) := by
  refine h.extend hline ?_ ?_ ?_
  · intro line' hline'
    rw [hline, Option.some.injEq] at hline'
    exact .inr (.inl (hline' ▸ hcloses))
  · rw [hblank]
    exact fun hfalse => absurd hfalse Bool.false_ne_true
  · rw [insideImport_succ hline]
    refine ⟨fun hfalse => absurd hfalse Bool.false_ne_true, ?_⟩
    rintro (hopens | hinside)
    · exact absurd hopens.1 himport
    · exact absurd hinside.1 h.not_insideImport

/-- Where the script ends, or a line that is not blank and no part of an import follows, the run is
complete. -/
theorem isImportRun (h : Looked lines first isOpen last index) (hfirst : IsFirstImport lines first)
    (hstop : index < lines.length → isOpen = false ∧ ∃ line, lines[index]? = some line ∧
      line.isBlank = false ∧ ¬ IsImportLine line ∧ ¬ IsClosingLine line) :
    IsImportRun lines first last where
  isFirst := hfirst
  le := h.le
  lt := Nat.lt_of_lt_of_le h.lt h.index_le
  belongs := h.belongs
  not_blank := h.not_blank
  open_to_end := by
    intro hinside
    rw [← insideImport_of_blanks h.lt h.blank, ← h.isOpen_iff] at hinside
    rw [h.eq_of_isOpen hinside]
    by_contra hne
    obtain ⟨hclosed, -⟩ := hstop (Nat.lt_of_le_of_ne h.index_le hne)
    rw [hclosed] at hinside
    cases hinside
  maximal := by
    intro i line hlast hline hnot hblanks
    have hindex : index ≤ i := by
      by_contra hlt
      rw [h.blank i line hlast (Nat.lt_of_not_le hlt) hline] at hnot
      cases hnot
    have hi : i < lines.length := (List.getElem?_eq_some_iff.mp hline).1
    obtain ⟨-, stop, hget, hstop, himport, hcloses⟩ := hstop (Nat.lt_of_le_of_lt hindex hi)
    rcases Nat.lt_or_eq_of_le hindex with hlt | rfl
    · -- the line at which the scan stops would be blank
      rw [hblanks index stop h.lt hlt hget] at hstop
      cases hstop
    · rw [hget, Option.some.injEq] at hline
      exact hline ▸ ⟨himport, hcloses⟩

end Looked

theorem of_drop_eq_cons {lines rest : List Text} {line : Text} {index : Nat}
    (h : lines.drop index = line :: rest) :
    lines[index]? = some line ∧ lines.drop (index + 1) = rest := by
  rw [← List.tail_drop, h, ← Nat.add_zero index, ← List.getElem?_drop, h]
  exact ⟨rfl, rfl⟩

theorem isEmpty_trim_iff {line : Text} : line.trim.isEmpty = true ↔ line.isBlank = true :=
  List.isEmpty_iff.trans ⟨Text.isBlank_of_trim_eq_nil, Text.trim_eq_nil⟩

/-- The scan ends with the last line of the run. -/
theorem isImportRun_importRunEnd {lines rest : List Text} {first last index : Nat} {isOpen : Bool}
    (hfirst : IsFirstImport lines first) (hrest : lines.drop index = rest)
    (h : Looked lines first isOpen last index) :
    IsImportRun lines first (importRunEnd isOpen last index rest) := by
  fun_induction importRunEnd isOpen last index rest with
  | case1 isOpen last index =>
    refine h.isImportRun hfirst fun hlt => absurd hlt (Nat.not_lt.mpr ?_)
    exact List.drop_eq_nil_iff.mp hrest
  | case2 last index line rest ih =>
    obtain ⟨hline, hbelow⟩ := of_drop_eq_cons hrest
    exact ih hbelow (h.inside hline)
  | case3 last index line rest trimmed himport ih =>
    obtain ⟨hline, hbelow⟩ := of_drop_eq_cons hrest
    exact ih hbelow (h.isImport hline (startsImport_iff.mp himport))
  | case4 last index line rest trimmed himport hempty ih =>
    obtain ⟨hline, hbelow⟩ := of_drop_eq_cons hrest
    exact ih hbelow (h.pass hline (isEmpty_trim_iff.mp hempty))
  | case5 last index line rest trimmed himport hempty hcloses ih =>
    obtain ⟨hline, hbelow⟩ := of_drop_eq_cons hrest
    have hblank : line.isBlank = false := Bool.not_eq_true _ ▸ mt isEmpty_trim_iff.mpr hempty
    exact ih hbelow (h.isClosing hline (mt startsImport_iff.mpr himport) hblank
      (closesImport_iff.mp hcloses))
  | case6 last index line rest trimmed himport hempty hcloses =>
    obtain ⟨hline, -⟩ := of_drop_eq_cons hrest
    have hblank : line.isBlank = false := Bool.not_eq_true _ ▸ mt isEmpty_trim_iff.mpr hempty
    exact h.isImportRun hfirst fun _ => ⟨rfl, line, hline, hblank, mt startsImport_iff.mpr himport,
      mt closesImport_iff.mpr hcloses⟩

/-! ## The run -/

theorem importRun?_eq_none_iff {lines : List Text} :
    importRun? lines = none ↔ ∀ line ∈ lines, ¬ IsImportLine line := by
  rw [importRun?, Option.map_eq_none_iff, List.findIdx?_eq_none_iff]
  simp only [← startsImport_iff, Bool.not_eq_true]

/-- The run that is found is the first one. -/
theorem isImportRun_of_importRun? {lines : List Text} {first last : Nat}
    (h : importRun? lines = some (first, last)) : IsImportRun lines first last := by
  obtain ⟨start, hstart, heq⟩ := Option.map_eq_some_iff.mp h
  cases heq
  obtain ⟨hlt, himport, hleast⟩ := List.findIdx?_eq_some_iff_getElem.mp hstart
  have himport : IsImportLine lines[first] := startsImport_iff.mp himport
  have hget : lines[first]? = some lines[first] := List.getElem?_eq_getElem hlt
  have hfirst : IsFirstImport lines first := by
    refine ⟨⟨lines[first], hget, himport⟩, fun i line hi hline hline' => ?_⟩
    obtain ⟨_, rfl⟩ := List.getElem?_eq_some_iff.mp hline
    exact hleast i hi (startsImport_iff.mpr hline')
  -- the first line of the run is looked at before the run is known to have one
  have hlooked : Looked lines first (leavesOpen lines[first].trim) first (first + 1) := by
    refine ⟨Nat.le_refl first, Nat.lt_succ_self first, hlt, ?_, ?_, ?_, ?_, fun _ => rfl⟩
    · intro i hle hge line hline
      obtain rfl : i = first := Nat.le_antisymm hge hle
      rw [hget, Option.some.injEq] at hline
      exact .inl (hline ▸ himport)
    · intro line hline hblank
      rw [hget, Option.some.injEq] at hline
      rw [← hline, himport.isBlank_eq_false] at hblank
      cases hblank
    · exact fun i _ hle hi => absurd hi (Nat.not_lt.mpr hle)
    · rw [opensImport_iff himport, insideImport_succ hget]
      exact ⟨.inl, fun h => h.resolve_right fun hinside => hfirst.not_insideImport hinside.1⟩
  have hscan := isImportRun_importRunEnd hfirst rfl hlooked
  rw [List.drop_eq_getElem_cons hlt, importRunEnd]
  rwa [if_pos (startsImport_iff.mpr himport)]

/-- The first import is determined. -/
theorem IsFirstImport.unique {lines : List Text} {i j : Nat} (hi : IsFirstImport lines i)
    (hj : IsFirstImport lines j) : i = j := by
  obtain ⟨line, hline, himport⟩ := hi.isImport
  obtain ⟨line', hline', himport'⟩ := hj.isImport
  rcases Nat.lt_trichotomy i j with hlt | heq | hlt
  · exact absurd himport (hj.least i line hlt hline)
  · exact heq
  · exact absurd himport' (hi.least j line' hlt hline')

namespace IsImportRun

variable {lines : List Text} {first last first' last' : Nat}

/-- No run goes on below another one: what follows is blank up to a line that does not belong. -/
theorem last_le (h : IsImportRun lines first last) (h' : IsImportRun lines first' last') :
    last' ≤ last := by
  by_contra hle
  have hlast : last < last' := Nat.lt_of_not_le hle
  have hfirst : first' ≤ last := h'.isFirst.unique h.isFirst ▸ h.le
  have hclosed : ¬ InsideImport lines (last + 1) := by
    intro hinside
    have hend := h.open_to_end hinside
    have hwithin := h'.lt
    omega
  have hblank : ∀ i line, last + 1 ≤ i → i ≤ last' → lines[i]? = some line →
      line.isBlank = true := by
    intro i
    induction i using Nat.strongRecOn with
    | ind i ih =>
      intro line hi hi' hline
      have habove : ∀ k between, last + 1 ≤ k → k < i → lines[k]? = some between →
          between.isBlank = true := fun k between hk hki =>
        ih k hki between hk (Nat.le_of_lt (Nat.lt_of_lt_of_le hki hi'))
      by_contra hnot
      rw [Bool.not_eq_true] at hnot
      obtain ⟨himport, hcloses⟩ := h.maximal i line hi hline hnot habove
      rcases h'.belongs i (by omega) hi' line hline with h | h | h | h
      · exact himport h
      · exact hcloses h
      · exact Bool.false_ne_true (hnot.symm.trans h)
      · exact hclosed ((insideImport_of_blanks hi habove).mp h)
  -- so the longer run ends with a blank line outside of imports
  have hget := List.getElem?_eq_getElem h'.lt
  have hinside := h'.not_blank _ hget (hblank last' _ hlast (Nat.le_refl last') hget)
  exact hclosed ((insideImport_of_blanks hlast fun k line hk hki =>
    hblank k line hk (Nat.le_of_lt hki)).mp hinside)

/-- The first run is determined. -/
theorem unique (h : IsImportRun lines first last) (h' : IsImportRun lines first' last') :
    first = first' ∧ last = last' :=
  ⟨h.isFirst.unique h'.isFirst, Nat.le_antisymm (h'.last_le h) (h.last_le h')⟩

end IsImportRun

/-- The first run is found. -/
theorem IsImportRun.importRun?_eq_some {lines : List Text} {first last : Nat}
    (h : IsImportRun lines first last) : importRun? lines = some (first, last) := by
  cases hrun : importRun? lines with
  | none =>
    obtain ⟨line, hline, himport⟩ := h.isFirst.isImport
    exact absurd himport (importRun?_eq_none_iff.mp hrun line (List.mem_of_getElem? hline))
  | some run =>
    obtain ⟨rfl, rfl⟩ := h.unique (isImportRun_of_importRun? hrun)
    rfl

/-- Nothing is found in a script without imports, and in any other one exactly the first run of imports:
from the first import on, lines that are imports, ends of imports, blank or inside an open import, as far
as these go, without the blank lines at the end. -/
theorem importRun?_maximal (lines : List Text) :
    (importRun? lines = none ↔ ∀ line ∈ lines, ¬ IsImportLine line) ∧
      ∀ first last, importRun? lines = some (first, last) ↔ IsImportRun lines first last :=
  ⟨importRun?_eq_none_iff, fun _ _ => ⟨isImportRun_of_importRun?, IsImportRun.importRun?_eq_some⟩⟩

example : importRun? (["", "import a from 'a'", "", "import \x7b", "", "\x7d from 'b'", "", "f()"].map
    String.toList) = some (1, 5) := by
  decide +kernel

end Script

end SourceIndex
