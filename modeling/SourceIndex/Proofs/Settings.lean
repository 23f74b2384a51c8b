import SourceIndex.Proofs.Case
import SourceIndex.Settings.Merge

/-!
# What merging settings gives

A check of a value reports a fault exactly if the value is bad and gives what the value sets
otherwise (`Settings.Checks`). Merging is a row of such checks, first of the document and then of the
overrides, so it fails exactly if one of the values is bad, and the fault of a document is reported
whatever the overrides. What it gives otherwise is read off the values without a check
(`Settings.chosen`). The checks keep the limits in their caps and the extensions in lower case, and so
does every row of merges that starts from the default settings.
-/

namespace SourceIndex

/-! ## Values -/

namespace Document

/-- The value is a table. -/
def IsTable (v : Document) : Prop :=
  ∃ fields, v = .table fields

/-- The value is an integer from one to a cap. -/
def IsLimit (cap : Nat) (v : Document) : Prop :=
  ∃ n : Int, v = .int n ∧ 1 ≤ n ∧ n ≤ cap

/-- The value is not empty and no limit. -/
def IsBadLimit (cap : Nat) (v : Document) : Prop :=
  v ≠ .null ∧ ¬v.IsLimit cap

/-- The value is a text that starts with a dot. -/
def IsExtension (v : Document) : Prop :=
  ∃ s : Text, v = .text ('.' :: s)

/-- The value is a list of texts that start with a dot. -/
def IsExtensions (v : Document) : Prop :=
  ∃ items, v = .list items ∧ ∀ item ∈ items, item.IsExtension

/-- The value is a truth value. -/
def IsSwitch (v : Document) : Prop :=
  ∃ b, v = .bool b

/-- The value is a text that is not blank. -/
def IsLocation (v : Document) : Prop :=
  ∃ s : Text, v = .text s ∧ s.isBlank = false

/-- An integer is a limit if it is in the bounds. -/
theorem isLimit_int {n : Int} {cap : Nat} : (int n).IsLimit cap ↔ 1 ≤ n ∧ n ≤ cap := by
  simp [IsLimit]

/-- A list is one of extensions if all of its items are extensions. -/
theorem isExtensions_list {items : List Document} :
    (list items).IsExtensions ↔ ∀ item ∈ items, item.IsExtension := by
  simp [IsExtensions]

/-- The limit that a value sets. -/
def limit? : Document → Option Nat
  | .int n => some n.toNat
  | _ => none

/-- The truth value that a value is. -/
def switch? : Document → Option Bool
  | .bool b => some b
  | _ => none

/-- The text that a value is. -/
def text? : Document → Option Text
  | .text s => some s
  | _ => none

/-- The texts in a list. -/
def texts : Document → List Text
  | .list items => items.filterMap text?
  | _ => []

end Document

namespace Settings

/-! ## Documents and overrides -/

/-- The sections that settings are read from. -/
def sections : List String :=
  ["search", "context", "chunking", "audit"]

/-- The limits: their sections, fields and caps. -/
def limits : List (String × String × Nat) :=
  [("search", "max_results", 200), ("search", "candidate_pool", 200),
    ("context", "token_budget", 1000000)]

/-- The fields of extensions. -/
def extensionFields : List String :=
  ["script_extensions", "stylesheet_extensions", "query_extensions", "structured_extensions"]

/-- The fields that settings are read from, with their sections. -/
def fields : List (String × String) :=
  limits.map (fun l => (l.1, l.2.1)) ++ extensionFields.map (fun name => ("chunking", name)) ++
    [("audit", "enabled"), ("audit", "path")]

/-- A section is there and no table. -/
def Misplaced (payload : List (Text × Document)) (name : String) : Prop :=
  ∃ v ∈ payload.lookup name.toList, ¬v.IsTable

/-- The fields of a section, none if it is absent or no table. -/
def fieldsOf (payload : List (Text × Document)) (name : String) : List (Text × Document) :=
  match payload.lookup name.toList with
  | some (.table fields) => fields
  | _ => []

/-- The value that a document gives to a field of a section. -/
def given (payload : List (Text × Document)) (name field : String) : Option Document :=
  (fieldsOf payload name).lookup field.toList

/-- A document has a section that is no table or a field with a bad value. -/
def Faulty (payload : List (Text × Document)) : Prop :=
  (∃ name ∈ sections, Misplaced payload name) ∨
    (∃ l ∈ limits, ∃ v ∈ given payload l.1 l.2.1, v.IsBadLimit l.2.2) ∨
    (∃ field ∈ extensionFields, ∃ v ∈ given payload "chunking" field, ¬v.IsExtensions) ∨
    (∃ v ∈ given payload "audit" "enabled", ¬v.IsSwitch) ∨
    ∃ v ∈ given payload "audit" "path", ¬v.IsLocation

/-- An override of a limit is bad. -/
def FaultyOverrides (o : Overrides) : Prop :=
  o.maxResults.IsBadLimit 200 ∨ o.candidatePool.IsBadLimit 200 ∨ o.tokenBudget.IsBadLimit 1000000

/-- The limit that a document sets, or the one of the base. -/
def chosenLimit (payload : List (Text × Document)) (name field : String) (base : Nat) : Nat :=
  ((given payload name field).bind Document.limit?).getD base

/-- The extensions that a document sets, in lower case, or the ones of the base. -/
def chosenExtensions (payload : List (Text × Document)) (field : String) (base : List Text) :
    List Text :=
  ((given payload "chunking" field).map fun v => v.texts.map Text.lower).getD base

/-- Field by field what an override sets, else what a document sets, else what the base has. -/
def chosen (base : Settings) (payload : List (Text × Document)) (o : Overrides) : Settings where
  maxResults :=
    o.maxResults.limit?.getD (chosenLimit payload "search" "max_results" base.maxResults)
  candidatePool :=
    o.candidatePool.limit?.getD (chosenLimit payload "search" "candidate_pool" base.candidatePool)
  tokenBudget :=
    o.tokenBudget.limit?.getD (chosenLimit payload "context" "token_budget" base.tokenBudget)
  scriptExtensions := chosenExtensions payload "script_extensions" base.scriptExtensions
  stylesheetExtensions := chosenExtensions payload "stylesheet_extensions" base.stylesheetExtensions
  queryExtensions := chosenExtensions payload "query_extensions" base.queryExtensions
  structuredExtensions := chosenExtensions payload "structured_extensions" base.structuredExtensions
  auditEnabled :=
    o.auditEnabled.getD
      (((given payload "audit" "enabled").bind Document.switch?).getD base.auditEnabled)
  auditPath :=
    o.auditPath.getD
      ((((given payload "audit" "path").bind Document.text?).map Path.Normal.of).getD base.auditPath)

/-! ## Checks -/

/-- A check reports a fault exactly in the bad case and gives one value otherwise. -/
structure Checks {α : Type} (check : Except SettingsError α) (bad : Prop) (a : α) : Prop where
  error : bad → ∃ e, check = .error e
  ok : ¬bad → check = .ok a

namespace Checks

variable {α β : Type} {check : Except SettingsError α} {bad bad' : Prop} {a : α}

theorem congr (h : Checks check bad a) (hbad : bad ↔ bad') : Checks check bad' a :=
  ⟨fun hb => h.error (hbad.mpr hb), fun hb => h.ok (mt hbad.mp hb)⟩

/-- A value that is there is bad in no case. -/
theorem pure (a : α) : Checks (Pure.pure a) False a :=
  ⟨False.elim, fun _ => rfl⟩

/-- Two checks in a row fail if one of them does. -/
theorem bind {f : α → Except SettingsError β} {b : β} (h : Checks check bad a)
    (hf : Checks (f a) bad' b) : Checks (check >>= f) (bad ∨ bad') b := by
  refine ⟨?_, ?_⟩
  · intro hbad
    by_cases hb : bad
    · obtain ⟨e, he⟩ := h.error hb
      exact ⟨e, by rw [he]; rfl⟩
    · rw [h.ok hb]
      exact hf.error (hbad.resolve_left hb)
  · intro hbad
    rw [h.ok fun hb => hbad (.inl hb)]
    exact hf.ok fun hb => hbad (.inr hb)

/-- A check fails exactly in the bad case. -/
theorem error_iff (h : Checks check bad a) : (∃ e, check = .error e) ↔ bad := by
  refine ⟨?_, h.error⟩
  rintro ⟨e, he⟩
  by_cases hb : bad
  · exact hb
  · rw [h.ok hb] at he
    cases he

/-- A check gives its value and no other. -/
theorem ok_iff (h : Checks check bad a) (b : α) : check = .ok b ↔ ¬bad ∧ b = a := by
  refine ⟨?_, ?_⟩
  · intro hok
    have hb : ¬bad := by
      intro hb
      obtain ⟨e, he⟩ := h.error hb
      rw [hok] at he
      cases he
    rw [h.ok hb] at hok
    exact ⟨hb, (Except.ok.inj hok).symm⟩
  · rintro ⟨hb, rfl⟩
    exact h.ok hb

end Checks

theorem checks_sectionFields (payload : List (Text × Document)) (name : String) :
    Checks (sectionFields payload name) (Misplaced payload name) (fieldsOf payload name) := by
  unfold sectionFields Misplaced fieldsOf
  cases payload.lookup name.toList with
  | none => exact ⟨by simp, fun _ => rfl⟩
  | some v =>
    cases v with
    | table fields => exact ⟨by simp [Document.IsTable], fun _ => rfl⟩
    | _ => exact ⟨fun _ => ⟨_, rfl⟩, by simp [Document.IsTable]⟩

theorem checks_limit (v : Document) (field : String) (base cap : Nat) :
    Checks (limit v field base cap) (v.IsBadLimit cap) (v.limit?.getD base) := by
  cases v with
  | null => exact ⟨fun h => absurd rfl h.1, fun _ => rfl⟩
  | int n =>
    simp only [limit]
    by_cases hlow : n < 1
    · rw [if_pos hlow]
      refine ⟨fun _ => ⟨_, rfl⟩, fun h => absurd ⟨Document.noConfusion, ?_⟩ h⟩
      rw [Document.isLimit_int]
      omega
    rw [if_neg hlow]
    by_cases hhigh : (cap : Int) < n
    · rw [if_pos hhigh]
      refine ⟨fun _ => ⟨_, rfl⟩, fun h => absurd ⟨Document.noConfusion, ?_⟩ h⟩
      rw [Document.isLimit_int]
      omega
    · rw [if_neg hhigh]
      refine ⟨fun h => absurd (Document.isLimit_int.mpr ?_) h.2, fun _ => rfl⟩
      omega
  | _ =>
    refine ⟨fun _ => ⟨_, rfl⟩, fun h => absurd ⟨Document.noConfusion, ?_⟩ h⟩
    simp [Document.IsLimit]

/-- The check of a limit in a document. -/
theorem checks_limitIn (payload : List (Text × Document)) (name field message : String)
    (base cap : Nat) :
    Checks (limit (limitIn (fieldsOf payload name) field) message base cap)
      (∃ v ∈ given payload name field, v.IsBadLimit cap) (chosenLimit payload name field base) := by
  have h := checks_limit (limitIn (fieldsOf payload name) field) message base cap
  unfold limitIn at h ⊢
  unfold chosenLimit given
  cases hgiven : (fieldsOf payload name).lookup field.toList with
  | none =>
    rw [hgiven] at h
    exact h.congr (by simp [Document.IsBadLimit])
  | some v =>
    rw [hgiven] at h
    exact h.congr (by simp)

/-- Extensions are lowered one by one. -/
theorem mapM_extension?_eq_some {items : List Document}
    (h : ∀ item ∈ items, item.IsExtension) :
    items.mapM extension? = some ((Document.list items).texts.map Text.lower) := by
  induction items with
  | nil => rfl
  | cons item rest ih =>
    obtain ⟨⟨s, rfl⟩, hrest⟩ := List.forall_mem_cons.mp h
    rw [List.mapM_cons, ih hrest]
    rfl

/-- A list with an item that is no extension is refused. -/
theorem mapM_extension?_eq_none {items : List Document}
    (h : ¬∀ item ∈ items, item.IsExtension) : items.mapM extension? = none := by
  induction items with
  | nil => exact absurd (fun item hitem => nomatch hitem) h
  | cons item rest ih =>
    rw [List.mapM_cons]
    cases hitem : extension? item with
    | none => rfl
    | some e =>
      have hextension : item.IsExtension := by
        unfold extension? at hitem
        split at hitem
        · exact ⟨_, rfl⟩
        · cases hitem
      rw [ih fun hrest => h (List.forall_mem_cons.mpr ⟨hextension, hrest⟩)]
      rfl

theorem checks_extensions (payload : List (Text × Document)) (field : String) (base : List Text) :
    Checks (extensions (fieldsOf payload "chunking") field base)
      (∃ v ∈ given payload "chunking" field, ¬v.IsExtensions)
      (chosenExtensions payload field base) := by
  unfold chosenExtensions given extensions
  cases (fieldsOf payload "chunking").lookup field.toList with
  | none => exact ⟨by simp, fun _ => rfl⟩
  | some v =>
    cases v with
    | list items =>
      by_cases hitems : ∀ item ∈ items, item.IsExtension
      · simp only [mapM_extension?_eq_some hitems]
        exact ⟨by simp [Document.isExtensions_list.mpr hitems], fun _ => rfl⟩
      · simp only [mapM_extension?_eq_none hitems]
        exact ⟨fun _ => ⟨_, rfl⟩, by simp [mt Document.isExtensions_list.mp hitems]⟩
    | _ => exact ⟨fun _ => ⟨_, rfl⟩, by simp [Document.IsExtensions]⟩

theorem checks_auditSwitch (payload : List (Text × Document)) (base : Bool) :
    Checks (auditSwitch (fieldsOf payload "audit") base)
      (∃ v ∈ given payload "audit" "enabled", ¬v.IsSwitch)
      (((given payload "audit" "enabled").bind Document.switch?).getD base) := by
  unfold auditSwitch given
  cases (fieldsOf payload "audit").lookup "enabled".toList with
  | none => exact ⟨by simp, fun _ => rfl⟩
  | some v =>
    cases v with
    | bool b => exact ⟨by simp [Document.IsSwitch], fun _ => rfl⟩
    | _ => exact ⟨fun _ => ⟨_, rfl⟩, by simp [Document.IsSwitch]⟩

theorem checks_auditLocation (payload : List (Text × Document)) (base : Path.Normal) :
    Checks (auditLocation (fieldsOf payload "audit") base)
      (∃ v ∈ given payload "audit" "path", ¬v.IsLocation)
      ((((given payload "audit" "path").bind Document.text?).map Path.Normal.of).getD base) := by
  unfold auditLocation given
  cases (fieldsOf payload "audit").lookup "path".toList with
  | none => exact ⟨by simp, fun _ => rfl⟩
  | some v =>
    cases v with
    | text s =>
      by_cases hs : s.isBlank = true
      · exact ⟨fun _ => ⟨_, if_pos hs⟩, by simp [Document.IsLocation, hs]⟩
      · exact ⟨by simp [Document.IsLocation, hs], fun _ => if_neg hs⟩
    | _ => exact ⟨fun _ => ⟨_, rfl⟩, by simp [Document.IsLocation]⟩

/-! ## Merging -/

theorem checks_amend (base : Settings) (payload : List (Text × Document)) :
    Checks (amend base payload) (Faulty payload) (chosen base payload {}) := by
  unfold amend
  apply Checks.congr
  -- the checks in the order in which the sections and fields are read
  case h =>
    apply Checks.bind (checks_sectionFields payload "search")
    apply Checks.bind (checks_sectionFields payload "context")
    apply Checks.bind (checks_sectionFields payload "chunking")
    apply Checks.bind (checks_sectionFields payload "audit")
    apply Checks.bind (checks_limitIn payload "search" "max_results" _ _ _)
    apply Checks.bind (checks_limitIn payload "search" "candidate_pool" _ _ _)
    apply Checks.bind (checks_limitIn payload "context" "token_budget" _ _ _)
    apply Checks.bind (checks_extensions payload "script_extensions" _)
    apply Checks.bind (checks_extensions payload "stylesheet_extensions" _)
    apply Checks.bind (checks_extensions payload "query_extensions" _)
    apply Checks.bind (checks_extensions payload "structured_extensions" _)
    apply Checks.bind (checks_auditSwitch payload _)
    apply Checks.bind (checks_auditLocation payload _)
    exact Checks.pure _
  case hbad =>
    simp only [Faulty, sections, limits, extensionFields, List.mem_cons, List.not_mem_nil, or_false,
      exists_eq_or_imp, exists_eq_left, or_assoc]
    rfl

theorem checks_override (base : Settings) (o : Overrides) :
    Checks (base.override o) (FaultyOverrides o) (chosen base [] o) := by
  unfold override
  apply Checks.congr
  case h =>
    apply Checks.bind (checks_limit o.maxResults _ _ _)
    apply Checks.bind (checks_limit o.candidatePool _ _ _)
    apply Checks.bind (checks_limit o.tokenBudget _ _ _)
    exact Checks.pure _
  case hbad =>
    simp only [FaultyOverrides, or_false]
    rfl

/-- Merging fails exactly if the document or the overrides have a fault. -/
theorem checks_merge (base : Settings) (payload : List (Text × Document)) (o : Overrides) :
    Checks (merge base payload o) (Faulty payload ∨ FaultyOverrides o) (chosen base payload o) :=
  (checks_amend base payload).bind (checks_override (chosen base payload {}) o)

/-! ## What the outcome depends on -/

/-- Two documents agree on which sections are no tables and on the fields that are read. -/
structure Agree (payload payload' : List (Text × Document)) : Prop where
  misplaced : ∀ name ∈ sections, (Misplaced payload name ↔ Misplaced payload' name)
  given : ∀ f ∈ fields, given payload f.1 f.2 = Settings.given payload' f.1 f.2

/-- The fields of a section are refused or taken in documents that agree on the section. -/
theorem sectionFields_bind_congr {α : Type} {payload payload' : List (Text × Document)}
    {name : String} {f f' : List (Text × Document) → Except SettingsError α}
    (hmisplaced : Misplaced payload name ↔ Misplaced payload' name)
    (hf : f (fieldsOf payload name) = f' (fieldsOf payload' name)) :
    sectionFields payload name >>= f = sectionFields payload' name >>= f' := by
  have herror {payload : List (Text × Document)} (h : Misplaced payload name) :
      sectionFields payload name = .error (.notTable name.toList) := by
    obtain ⟨v, hv, htable⟩ := h
    rw [Option.mem_def] at hv
    cases v with
    | table fields => exact absurd ⟨fields, rfl⟩ htable
    | _ => simp [sectionFields, hv]
  -- a fault names the section only, so both documents have the same one reported
  by_cases h : Misplaced payload name
  · rw [herror h, herror (hmisplaced.mp h)]
    rfl
  · rw [(checks_sectionFields payload name).ok h,
      (checks_sectionFields payload' name).ok (mt hmisplaced.mpr h)]
    exact hf

/-- Documents that agree set the same or have the same fault reported. -/
theorem amend_congr (base : Settings) {payload payload' : List (Text × Document)}
    (h : Agree payload payload') : amend base payload = amend base payload' := by
  have hlimit (name field : String) (hfield : (name, field) ∈ fields) :
      limitIn (fieldsOf payload name) field = limitIn (fieldsOf payload' name) field :=
    congrArg (Option.getD · Document.null) (h.given _ hfield)
  have hextensions (field : String) (given : List Text) (hfield : ("chunking", field) ∈ fields) :
      extensions (fieldsOf payload "chunking") field given =
        extensions (fieldsOf payload' "chunking") field given := by
    have hlookup := h.given _ hfield
    unfold Settings.given at hlookup
    unfold extensions
    rw [hlookup]
  have hswitch : auditSwitch (fieldsOf payload "audit") base.auditEnabled =
      auditSwitch (fieldsOf payload' "audit") base.auditEnabled := by
    have hlookup := h.given ("audit", "enabled") (by simp [fields])
    unfold Settings.given at hlookup
    unfold auditSwitch
    rw [hlookup]
  have hlocation : auditLocation (fieldsOf payload "audit") base.auditPath =
      auditLocation (fieldsOf payload' "audit") base.auditPath := by
    have hlookup := h.given ("audit", "path") (by simp [fields])
    unfold Settings.given at hlookup
    unfold auditLocation
    rw [hlookup]
  unfold amend
  apply sectionFields_bind_congr (h.misplaced "search" (by simp [sections]))
  apply sectionFields_bind_congr (h.misplaced "context" (by simp [sections]))
  apply sectionFields_bind_congr (h.misplaced "chunking" (by simp [sections]))
  apply sectionFields_bind_congr (h.misplaced "audit" (by simp [sections]))
  rw [hlimit "search" "max_results" (by simp [fields, limits]),
    hlimit "search" "candidate_pool" (by simp [fields, limits]),
    hlimit "context" "token_budget" (by simp [fields, limits]),
    hextensions "script_extensions" _ (by simp [fields, extensionFields]),
    hextensions "stylesheet_extensions" _ (by simp [fields, extensionFields]),
    hextensions "query_extensions" _ (by simp [fields, extensionFields]),
    hextensions "structured_extensions" _ (by simp [fields, extensionFields]), hswitch, hlocation]

/-- The fault of a document is reported whatever the overrides. -/
theorem exists_merge_eq_error (base : Settings) {payload : List (Text × Document)}
    (h : Faulty payload) : ∃ e, ∀ o, merge base payload o = .error e := by
  obtain ⟨e, he⟩ := (checks_amend base payload).error h
  refine ⟨e, ?_⟩
  intro o
  unfold merge
  rw [he]
  rfl

/-! ## Rows of steps -/

/-- A text starts with a dot and is in lower case. -/
def IsLowExtension (e : Text) : Prop :=
  e.head? = some '.' ∧ Text.lower e = e

/-- The limits are in their caps and the extensions start with a dot and are in lower case. -/
structure Valid (s : Settings) : Prop where
  maxResults : 1 ≤ s.maxResults ∧ s.maxResults ≤ 200
  candidatePool : 1 ≤ s.candidatePool ∧ s.candidatePool ≤ 200
  tokenBudget : 1 ≤ s.tokenBudget ∧ s.tokenBudget ≤ 1000000
  scriptExtensions : ∀ e ∈ s.scriptExtensions, IsLowExtension e
  stylesheetExtensions : ∀ e ∈ s.stylesheetExtensions, IsLowExtension e
  queryExtensions : ∀ e ∈ s.queryExtensions, IsLowExtension e
  structuredExtensions : ∀ e ∈ s.structuredExtensions, IsLowExtension e

/-- The default settings are valid. -/
theorem valid_default : Valid {} := by
  have hlow (e : Text) : IsLowExtension e ↔ e.head? = some '.' ∧ Text.lower e = e :=
    Iff.rfl
  refine ⟨by decide, by decide, by decide, ?_, ?_, ?_, ?_⟩
  all_goals
    simp only [hlow]
    decide

/-- A limit that is not bad keeps to its cap. -/
theorem bounds_limit? {v : Document} {cap base : Nat} (hv : ¬v.IsBadLimit cap)
    (hbase : 1 ≤ base ∧ base ≤ cap) : 1 ≤ v.limit?.getD base ∧ v.limit?.getD base ≤ cap := by
  by_cases hnull : v = .null
  · rw [hnull]
    exact hbase
  · have hlimit : v.IsLimit cap := by
      by_cases h : v.IsLimit cap
      · exact h
      · exact absurd ⟨hnull, h⟩ hv
    obtain ⟨n, rfl, hlow, hhigh⟩ := hlimit
    simp only [Document.limit?, Option.getD_some]
    omega

/-- A limit of a document that is not bad keeps to its cap. -/
theorem bounds_chosenLimit {payload : List (Text × Document)} {name field : String}
    {cap base : Nat} (h : ¬∃ v ∈ given payload name field, v.IsBadLimit cap)
    (hbase : 1 ≤ base ∧ base ≤ cap) :
    1 ≤ chosenLimit payload name field base ∧ chosenLimit payload name field base ≤ cap := by
  unfold chosenLimit
  cases hgiven : given payload name field with
  | none => exact hbase
  | some v => exact bounds_limit? (fun hv => h ⟨v, hgiven, hv⟩) hbase

/-- Extensions of a document that are not bad are extensions in lower case. -/
theorem isLowExtension_of_mem_chosenExtensions {payload : List (Text × Document)} {field : String}
    {base : List Text} (h : ¬∃ v ∈ given payload "chunking" field, ¬v.IsExtensions)
    (hbase : ∀ e ∈ base, IsLowExtension e) :
    ∀ e ∈ chosenExtensions payload field base, IsLowExtension e := by
  unfold chosenExtensions
  cases hgiven : given payload "chunking" field with
  | none => exact hbase
  | some v =>
    have hextensions : v.IsExtensions := by
      by_cases hv : v.IsExtensions
      · exact hv
      · exact absurd ⟨v, hgiven, hv⟩ h
    obtain ⟨items, rfl, hitems⟩ := hextensions
    intro e he
    -- an extension is the lowered form of a text that starts with a dot
    obtain ⟨s, hs, rfl⟩ := List.mem_map.mp he
    obtain ⟨item, hitem, htext⟩ := List.mem_filterMap.mp hs
    obtain ⟨t, rfl⟩ := hitems item hitem
    cases htext
    exact ⟨rfl, Text.lower_lower _⟩

/-- A merge without a fault keeps settings valid. -/
theorem Valid.chosen {base : Settings} {payload : List (Text × Document)} {o : Overrides}
    (hbase : base.Valid) (h : ¬(Faulty payload ∨ FaultyOverrides o)) :
    (chosen base payload o).Valid := by
  have hlimit (l : String × String × Nat) (hl : l ∈ limits) :
      ¬∃ v ∈ given payload l.1 l.2.1, v.IsBadLimit l.2.2 :=
    fun hv => h (.inl (.inr (.inl ⟨l, hl, hv⟩)))
  have hextensions (field : String) (hfield : field ∈ extensionFields) :
      ¬∃ v ∈ given payload "chunking" field, ¬v.IsExtensions :=
    fun hv => h (.inl (.inr (.inr (.inl ⟨field, hfield, hv⟩))))
  have hmax : ¬o.maxResults.IsBadLimit 200 := fun hv => h (.inr (.inl hv))
  have hpool : ¬o.candidatePool.IsBadLimit 200 := fun hv => h (.inr (.inr (.inl hv)))
  have hbudget : ¬o.tokenBudget.IsBadLimit 1000000 := fun hv => h (.inr (.inr (.inr hv)))
  refine ⟨bounds_limit? hmax ?_, bounds_limit? hpool ?_, bounds_limit? hbudget ?_, ?_, ?_, ?_, ?_⟩
  · exact bounds_chosenLimit (hlimit ("search", "max_results", 200) (by simp [limits]))
      hbase.maxResults
  · exact bounds_chosenLimit (hlimit ("search", "candidate_pool", 200) (by simp [limits]))
      hbase.candidatePool
  · exact bounds_chosenLimit (hlimit ("context", "token_budget", 1000000) (by simp [limits]))
      hbase.tokenBudget
  · exact isLowExtension_of_mem_chosenExtensions
      (hextensions "script_extensions" (by simp [extensionFields])) hbase.scriptExtensions
  · exact isLowExtension_of_mem_chosenExtensions
      (hextensions "stylesheet_extensions" (by simp [extensionFields])) hbase.stylesheetExtensions
  · exact isLowExtension_of_mem_chosenExtensions
      (hextensions "query_extensions" (by simp [extensionFields])) hbase.queryExtensions
  · exact isLowExtension_of_mem_chosenExtensions
      (hextensions "structured_extensions" (by simp [extensionFields])) hbase.structuredExtensions

/-- A step that changes settings: a document and overrides are merged, or overrides are applied. -/
inductive Step where
  | merge (payload : List (Text × Document)) (overrides : Overrides)
  | override (overrides : Overrides)

/-- The outcome of a step. -/
def Step.outcome (s : Settings) : Step → Except SettingsError Settings
  | .merge payload o => s.merge payload o
  | .override o => s.override o

/-- The settings after a step; one that is rejected leaves them as they are. -/
def Step.apply (s : Settings) (step : Step) : Settings :=
  match step.outcome s with
  | .ok s' => s'
  | .error _ => s

/-- The settings after a row of steps from the default settings. -/
def run (steps : List Step) : Settings :=
  steps.foldl Step.apply {}

/-- Overrides alone are a merge with a document that sets nothing. -/
theorem override_eq_merge (s : Settings) (o : Overrides) : s.override o = s.merge [] o :=
  rfl

/-- A step keeps settings valid. -/
theorem Valid.apply {s : Settings} (h : s.Valid) (step : Step) : (step.apply s).Valid := by
  have hmerge : ∃ payload o, step.outcome s = s.merge payload o := by
    cases step with
    | merge payload o => exact ⟨payload, o, rfl⟩
    | override o => exact ⟨[], o, override_eq_merge s o⟩
  obtain ⟨payload, o, hmerge⟩ := hmerge
  unfold Step.apply
  rw [hmerge]
  cases houtcome : s.merge payload o with
  | error e => exact h
  | ok s' =>
    obtain ⟨hgood, rfl⟩ := ((checks_merge s payload o).ok_iff s').mp houtcome
    exact h.chosen hgood

/-- A row of steps keeps settings valid. -/
theorem Valid.foldl_apply {s : Settings} (h : s.Valid) (steps : List Step) :
    (steps.foldl Step.apply s).Valid := by
  induction steps generalizing s with
  | nil => exact h
  | cons step rest ih => exact ih (h.apply step)

/-- Merging fails exactly if the document or the overrides have a fault, whatever the base, and a
document with a fault has the same fault reported whatever the overrides. Otherwise every field is
what an override sets, else what the document sets, else what the base has; sections and fields that
are not read change nothing. So every row of merges and overrides leads from the default settings to
limits in their caps and extensions in lower case. -/
theorem merge_chosen_and_run_valid :
    (∀ (base : Settings) (payload : List (Text × Document)) (o : Overrides),
      ((∃ e, merge base payload o = .error e) ↔ Faulty payload ∨ FaultyOverrides o) ∧
        ∀ s, merge base payload o = .ok s ↔
          ¬(Faulty payload ∨ FaultyOverrides o) ∧ s = chosen base payload o) ∧
      (∀ (base : Settings) (payload : List (Text × Document)), Faulty payload →
        ∃ e, ∀ o, merge base payload o = .error e) ∧
      (∀ payload payload' : List (Text × Document), Agree payload payload' →
        ∀ (base : Settings) (o : Overrides), merge base payload o = merge base payload' o) ∧
      ∀ steps : List Step, (run steps).Valid := by
  refine ⟨?_, ?_, ?_, ?_⟩
  · intro base payload o
    exact ⟨(checks_merge base payload o).error_iff, (checks_merge base payload o).ok_iff⟩
  · intro base payload h
    exact exists_merge_eq_error base h
  · intro payload payload' h base o
    unfold merge
    rw [amend_congr base h]
  · intro steps
    exact valid_default.foldl_apply steps

/-- A document that limits searches, with a section that is not read, and one whose limit is bad
although an override replaces it. -/
theorem merge_of_unread_section_and_replaced_limit :
    let search (n : Int) : Text × Document :=
      ("search".toList, .table [("max_results".toList, .int n)])
    let o : Overrides := { maxResults := .int 7, auditEnabled := some true }
    Agree [search 5] [("cache".toList, .null), search 5] ∧
      merge {} [search 5] {} = merge {} [("cache".toList, .null), search 5] {} ∧
      merge {} [search 5] {} = .ok { maxResults := 5 } ∧
      merge {} [search 5] o = .ok { maxResults := 7, auditEnabled := true } ∧
      Faulty [search 0] ∧ ∃ e, merge {} [search 0] o = .error e := by
  intro search o
  have hagree : Agree [search 5] [("cache".toList, .null), search 5] := by
    refine ⟨?_, ?_⟩
    · simp only [sections, List.forall_mem_cons]
      exact ⟨Iff.rfl, Iff.rfl, Iff.rfl, Iff.rfl, nofun⟩
    · simp only [fields, limits, extensionFields, List.map_cons, List.map_nil, List.cons_append,
        List.nil_append, List.forall_mem_cons]
      exact ⟨rfl, rfl, rfl, rfl, rfl, rfl, rfl, rfl, rfl, nofun⟩
  have hfaulty : Faulty [search 0] := by
    refine .inr (.inl ⟨("search", "max_results", 200), List.mem_cons_self, .int 0, rfl, ?_⟩)
    exact ⟨Document.noConfusion, fun ⟨n, hn, hlow, _⟩ => by cases hn; omega⟩
  obtain ⟨e, he⟩ := merge_chosen_and_run_valid.2.1 {} [search 0] hfaulty
  exact ⟨hagree, merge_chosen_and_run_valid.2.2.1 _ _ hagree {} {}, rfl, rfl, hfaulty, e, he o⟩

end Settings

end SourceIndex
