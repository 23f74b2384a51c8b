import SourceIndex.Proofs.Settings
import Mathlib.Logic.Basic

/-!
# Public settings are loaded back

Settings that are made public are a document with a value for each field that settings are read
from, so nothing of the settings that it is merged into is left. What it sets are the settings that
were made public, with their extensions in lower case (`chosen_publicFields`). Whether the checks
let it pass is a matter of its limits, its extensions and its path, one by one.
-/

namespace SourceIndex

/-! ## Values -/

namespace Document

theorem ofItems_map_str (texts : List Text) : ofItems (texts.map .str) = texts.map .text := by
  induction texts with
  | nil => rfl
  | cons t texts ih => rw [List.map_cons, List.map_cons, ofItems, ih, ofJson]

/-- A number is no bad limit if it keeps to the bounds. -/
theorem not_isBadLimit_int {n cap : Nat} : ¬(int n).IsBadLimit cap ↔ 1 ≤ n ∧ n ≤ cap := by
  rw [IsBadLimit, isLimit_int, not_and, not_not]
  exact ⟨fun h => by have := h Document.noConfusion; omega, fun h _ => by omega⟩

/-- A list of texts is a list of extensions if all of them start with a dot. -/
theorem isExtensions_list_text {es : List Text} :
    (list (es.map .text)).IsExtensions ↔ ∀ e ∈ es, e.head? = some '.' := by
  have htext (e : Text) : (text e).IsExtension ↔ e.head? = some '.' := by
    rw [IsExtension]
    cases e <;> simp
  rw [isExtensions_list, List.forall_mem_map]
  exact forall₂_congr fun e _ => htext e

/-- The texts in a list of texts. -/
theorem texts_list (es : List Text) : (list (es.map .text)).texts = es := by
  simp [texts, text?, List.filterMap_map, Function.comp_def]

end Document

/-- A normal path is its own normal form. -/
theorem Path.Normal.of_text (path : Path.Normal) : Path.Normal.of path.text = path := by
  obtain ⟨text, hnormal⟩ := path
  simp only [Path.Normal.of, hnormal]

namespace Settings

/-! ## The document of public settings -/

/-- The fields of the document that public settings are. -/
def publicFields (s : Settings) : List (Text × Document) :=
  let texts (extensions : List Text) : Document := .list (extensions.map .text)
  [("search".toList, .table
      [("max_results".toList, .int s.maxResults),
        ("candidate_pool".toList, .int s.candidatePool)]),
    ("context".toList, .table [("token_budget".toList, .int s.tokenBudget)]),
    ("chunking".toList, .table
      [("script_extensions".toList, texts s.scriptExtensions),
        ("stylesheet_extensions".toList, texts s.stylesheetExtensions),
        ("query_extensions".toList, texts s.queryExtensions),
        ("structured_extensions".toList, texts s.structuredExtensions)]),
    ("audit".toList, .table
      [("enabled".toList, .bool s.auditEnabled), ("path".toList, .text s.auditPath.text)])]

/-- Public settings are this document. -/
theorem ofJson_toJson (s : Settings) : Document.ofJson s.toJson = .table s.publicFields := by
  simp only [toJson, publicFields, Json.int, Document.ofJson, Document.ofFields,
    Document.ofItems_map_str]

/-! ## Checks -/

/-- A document without a fault has good values only. -/
theorem not_faulty_iff {payload : List (Text × Document)} :
    ¬Faulty payload ↔ (∀ name ∈ sections, ¬Misplaced payload name) ∧
      (∀ l ∈ limits, ∀ v ∈ given payload l.1 l.2.1, ¬v.IsBadLimit l.2.2) ∧
      (∀ field ∈ extensionFields, ∀ v ∈ given payload "chunking" field, v.IsExtensions) ∧
      (∀ v ∈ given payload "audit" "enabled", v.IsSwitch) ∧
      ∀ v ∈ given payload "audit" "path", v.IsLocation := by
  simp only [Faulty, not_or, not_exists, not_and, not_not]

/-- Lowering keeps a list of texts if it keeps each of them. -/
theorem eq_map_lower_iff {es : List Text} :
    es = es.map Text.lower ↔ ∀ e ∈ es, Text.lower e = e := by
  have hid : es.map Text.lower = es.map id ↔ ∀ e ∈ es, Text.lower e = id e := List.map_inj_left
  rw [List.map_id] at hid
  exact eq_comm.trans hid

/-- Extensions pass unchanged exactly if they are extensions in lower case. -/
theorem forall_isLowExtension_iff {es : List Text} :
    (∀ e ∈ es, IsLowExtension e) ↔
      (Document.list (es.map .text)).IsExtensions ∧ es = es.map Text.lower := by
  rw [Document.isExtensions_list_text, eq_map_lower_iff]
  exact forall₂_and

/-- A section that is a table is in its place. -/
theorem not_misplaced_of_lookup {payload fields : List (Text × Document)} {name : String}
    (h : payload.lookup name.toList = some (.table fields)) : ¬Misplaced payload name := by
  rintro ⟨v, hv, htable⟩
  rw [Option.mem_def, h] at hv
  exact htable ⟨fields, (Option.some.inj hv).symm⟩

/-- What holds of the value of a field holds of all that is given to it. -/
theorem forall_mem_given {payload : List (Text × Document)} {name field : String} {v : Document}
    {P : Document → Prop} (h : given payload name field = some v) :
    (∀ w ∈ given payload name field, P w) ↔ P v := by
  simp [h]

section

variable (base s : Settings)

/-- All sections of public settings are in their places. -/
theorem not_misplaced_publicFields : ∀ name ∈ sections, ¬Misplaced s.publicFields name := by
  simp only [sections, List.forall_mem_cons]
  exact ⟨not_misplaced_of_lookup rfl, not_misplaced_of_lookup rfl, not_misplaced_of_lookup rfl,
    not_misplaced_of_lookup rfl, List.forall_mem_nil _⟩

/-- The limits of public settings pass exactly if they keep to their caps. -/
theorem limits_publicFields_iff :
    (∀ l ∈ limits, ∀ v ∈ given s.publicFields l.1 l.2.1, ¬v.IsBadLimit l.2.2) ↔
      (1 ≤ s.maxResults ∧ s.maxResults ≤ 200) ∧ (1 ≤ s.candidatePool ∧ s.candidatePool ≤ 200) ∧
        1 ≤ s.tokenBudget ∧ s.tokenBudget ≤ 1000000 := by
  simp only [limits, List.forall_mem_cons]
  rw [forall_mem_given rfl, forall_mem_given rfl, forall_mem_given rfl, Document.not_isBadLimit_int,
    Document.not_isBadLimit_int, Document.not_isBadLimit_int, and_iff_left (List.forall_mem_nil _)]

/-- The extensions of public settings pass exactly if the lists of them do. -/
theorem extensions_publicFields_iff :
    (∀ field ∈ extensionFields, ∀ v ∈ given s.publicFields "chunking" field, v.IsExtensions) ↔
      (Document.list (s.scriptExtensions.map .text)).IsExtensions ∧
        (Document.list (s.stylesheetExtensions.map .text)).IsExtensions ∧
        (Document.list (s.queryExtensions.map .text)).IsExtensions ∧
        (Document.list (s.structuredExtensions.map .text)).IsExtensions := by
  simp only [extensionFields, List.forall_mem_cons]
  rw [forall_mem_given rfl, forall_mem_given rfl, forall_mem_given rfl, forall_mem_given rfl,
    and_iff_left (List.forall_mem_nil _)]

/-- The switch of public settings passes. -/
theorem isSwitch_publicFields : ∀ v ∈ given s.publicFields "audit" "enabled", v.IsSwitch :=
  (forall_mem_given rfl).mpr ⟨s.auditEnabled, rfl⟩

/-- The path of public settings passes exactly if it is not blank. -/
theorem location_publicFields_iff :
    (∀ v ∈ given s.publicFields "audit" "path", v.IsLocation) ↔
      s.auditPath.text.isBlank = false := by
  rw [forall_mem_given rfl, Document.IsLocation]
  simp

/-! ## Loading -/

/-- What the document sets are the settings with their extensions in lower case. -/
theorem chosen_publicFields :
    chosen base s.publicFields {} =
      { s with
        scriptExtensions := s.scriptExtensions.map Text.lower
        stylesheetExtensions := s.stylesheetExtensions.map Text.lower
        queryExtensions := s.queryExtensions.map Text.lower
        structuredExtensions := s.structuredExtensions.map Text.lower } := by
  have hextensions {field : String} {es given : List Text}
      (h : Settings.given s.publicFields "chunking" field = some (.list (es.map .text))) :
      chosenExtensions s.publicFields field given = es.map Text.lower := by
    rw [chosenExtensions, h, Option.map_some, Option.getD_some, Document.texts_list]
  rw [chosen, hextensions rfl, hextensions rfl, hextensions rfl, hextensions rfl, mk.injEq]
  exact ⟨rfl, rfl, rfl, rfl, rfl, rfl, rfl, rfl, Path.Normal.of_text s.auditPath⟩

/-- Lowering the extensions changes nothing exactly if it keeps each of the four lists. -/
theorem eq_chosen_publicFields_iff :
    s = chosen base s.publicFields {} ↔
      s.scriptExtensions = s.scriptExtensions.map Text.lower ∧
        s.stylesheetExtensions = s.stylesheetExtensions.map Text.lower ∧
        s.queryExtensions = s.queryExtensions.map Text.lower ∧
        s.structuredExtensions = s.structuredExtensions.map Text.lower := by
  rw [chosen_publicFields]
  obtain ⟨_, _, _, _, _, _, _, _, _⟩ := s
  simp only [mk.injEq, true_and, and_true]

end

/-- Public settings are a document. Merged into any settings it gives them back exactly if they are
valid and their path is not blank. -/
theorem merge_public_document (base s : Settings) :
    Document.ofJson s.toJson = .table s.publicFields ∧
      (merge base s.publicFields {} = .ok s ↔ s.Valid ∧ s.auditPath.text.isBlank = false) := by
  refine ⟨ofJson_toJson s, ?_⟩
  have hoverrides : ¬FaultyOverrides {} := by
    rintro (h | h | h) <;> exact h.1 rfl
  rw [(checks_merge base s.publicFields {}).ok_iff s, not_or, and_iff_left hoverrides,
    not_faulty_iff, and_iff_right (not_misplaced_publicFields s), limits_publicFields_iff,
    extensions_publicFields_iff, and_iff_right (isSwitch_publicFields s),
    location_publicFields_iff, eq_chosen_publicFields_iff]
  constructor
  · rintro ⟨⟨⟨hmax, hpool, hbudget⟩, ⟨hscript, hstyle, hquery, hstructured⟩, hpath⟩,
      hscript', hstyle', hquery', hstructured'⟩
    refine ⟨⟨hmax, hpool, hbudget, ?_, ?_, ?_, ?_⟩, hpath⟩
    · exact forall_isLowExtension_iff.mpr ⟨hscript, hscript'⟩
    · exact forall_isLowExtension_iff.mpr ⟨hstyle, hstyle'⟩
    · exact forall_isLowExtension_iff.mpr ⟨hquery, hquery'⟩
    · exact forall_isLowExtension_iff.mpr ⟨hstructured, hstructured'⟩
  · rintro ⟨hvalid, hpath⟩
    obtain ⟨hscript, hscript'⟩ := forall_isLowExtension_iff.mp hvalid.scriptExtensions
    obtain ⟨hstyle, hstyle'⟩ := forall_isLowExtension_iff.mp hvalid.stylesheetExtensions
    obtain ⟨hquery, hquery'⟩ := forall_isLowExtension_iff.mp hvalid.queryExtensions
    obtain ⟨hstructured, hstructured'⟩ := forall_isLowExtension_iff.mp hvalid.structuredExtensions
    exact ⟨⟨⟨hvalid.maxResults, hvalid.candidatePool, hvalid.tokenBudget⟩,
      ⟨hscript, hstyle, hquery, hstructured⟩, hpath⟩, hscript', hstyle', hquery', hstructured'⟩

end Settings

end SourceIndex
