import SourceIndex.Settings.Basic
import SourceIndex.Settings.Document

/-!
# Merging settings

A settings document and overrides are merged into given settings, field by field: an override counts
before the document, the document before the settings. The document is checked before the overrides
and even where an override replaces it. The first fault is reported and nothing is merged then.
-/

namespace SourceIndex

/-- A fault in a settings document or in overrides, with the name of the section or the field. -/
inductive SettingsError where
  | notTable (sectionName : Text)
  | notPositive (field : Text)
  | aboveCap (field : Text) (cap : Nat)
  | notList (field : Text)
  | notExtension (field : Text)
  | notBoolean (field : Text)
  | notText (field : Text)
  deriving DecidableEq, Repr

namespace SettingsError

/-- The start of the message about a field. -/
def about (field : Text) : Text :=
  "Config field '".toList ++ field ++ "' must ".toList

/-- The message that reports a fault. -/
def message : SettingsError → Text
  | notTable name => "Config section '".toList ++ name ++ "' must be a table.".toList
  | notPositive field => about field ++ "be a positive integer.".toList
  | aboveCap field cap => about field ++ "be <= ".toList ++ Text.ofNat cap ++ ['.']
  | notList field => about field ++ "be a list of strings.".toList
  | notExtension field => about field ++ "contain only '.ext' strings.".toList
  | notBoolean field => about field ++ "be a boolean.".toList
  | notText field => about field ++ "be a non-empty string.".toList

end SettingsError

/-- Settings that count before all others. What is absent here is taken from the others. -/
structure Overrides where
  maxResults : Document := .null
  candidatePool : Document := .null
  tokenBudget : Document := .null
  auditEnabled : Option Bool := none
  auditPath : Option Path.Normal := none

namespace Settings

/-- The fields of a section, none if it is absent. -/
def sectionFields (payload : List (Text × Document)) (name : String) :
    Except SettingsError (List (Text × Document)) :=
  match payload.lookup name.toList with
  | none => .ok []
  | some (.table fields) => .ok fields
  | some _ => .error (.notTable name.toList)

/-- A limit: an integer from one to a cap, or the given one if the value is empty. -/
def limit (value : Document) (field : String) (given cap : Nat) : Except SettingsError Nat :=
  match value with
  | .null => .ok given
  | .int n =>
    if n < 1 then .error (.notPositive field.toList)
    else if (cap : Int) < n then .error (.aboveCap field.toList cap)
    else .ok n.toNat
  | _ => .error (.notPositive field.toList)

/-- The extension that a value is, in lower case. -/
def extension? : Document → Option Text
  | .text ('.' :: s) => some (Text.lower ('.' :: s))
  | _ => none

/-- The extensions of a field, or the given ones if it is absent. -/
def extensions (fields : List (Text × Document)) (name : String) (given : List Text) :
    Except SettingsError (List Text) :=
  let field := "chunking.".toList ++ name.toList
  match fields.lookup name.toList with
  | none => .ok given
  | some (.list items) =>
    match items.mapM extension? with
    | some es => .ok es
    | none => .error (.notExtension field)
  | some _ => .error (.notList field)

/-- The switch of the audit trail, or the given one if it is absent. -/
def auditSwitch (fields : List (Text × Document)) (given : Bool) : Except SettingsError Bool :=
  match fields.lookup "enabled".toList with
  | none => .ok given
  | some (.bool b) => .ok b
  | some _ => .error (.notBoolean "audit.enabled".toList)

/-- The path of the audit trail, or the given one if it is absent. -/
def auditLocation (fields : List (Text × Document)) (given : Path.Normal) :
    Except SettingsError Path.Normal :=
  match fields.lookup "path".toList with
  | none => .ok given
  | some (.text s) =>
    if s.isBlank then .error (.notText "audit.path".toList) else .ok (.of s)
  | some _ => .error (.notText "audit.path".toList)

/-- The value of a limit in a section, empty if it is absent. -/
def limitIn (fields : List (Text × Document)) (name : String) : Document :=
  (fields.lookup name.toList).getD .null

/-- The settings with overrides. -/
def override (s : Settings) (o : Overrides) : Except SettingsError Settings := do
  let maxResults ← limit o.maxResults "overrides.max_results" s.maxResults maxResultsCap
  let candidatePool ←
    limit o.candidatePool "overrides.candidate_pool" s.candidatePool candidatePoolCap
  let tokenBudget ← limit o.tokenBudget "overrides.token_budget" s.tokenBudget tokenBudgetCap
  return { s with
    maxResults := maxResults
    candidatePool := candidatePool
    tokenBudget := tokenBudget
    auditEnabled := o.auditEnabled.getD s.auditEnabled
    auditPath := o.auditPath.getD s.auditPath }

/-- The settings with what a document sets. -/
def amend (base : Settings) (payload : List (Text × Document)) : Except SettingsError Settings := do
  let search ← sectionFields payload "search"
  let context ← sectionFields payload "context"
  let chunking ← sectionFields payload "chunking"
  let audit ← sectionFields payload "audit"
  let maxResults ←
    limit (limitIn search "max_results") "search.max_results" base.maxResults maxResultsCap
  let candidatePool ←
    limit (limitIn search "candidate_pool") "search.candidate_pool" base.candidatePool
      candidatePoolCap
  let tokenBudget ←
    limit (limitIn context "token_budget") "context.token_budget" base.tokenBudget tokenBudgetCap
  let script ← extensions chunking "script_extensions" base.scriptExtensions
  let stylesheet ← extensions chunking "stylesheet_extensions" base.stylesheetExtensions
  let query ← extensions chunking "query_extensions" base.queryExtensions
  let structured ← extensions chunking "structured_extensions" base.structuredExtensions
  let enabled ← auditSwitch audit base.auditEnabled
  let path ← auditLocation audit base.auditPath
  return {
    maxResults := maxResults
    candidatePool := candidatePool
    tokenBudget := tokenBudget
    scriptExtensions := script
    stylesheetExtensions := stylesheet
    queryExtensions := query
    structuredExtensions := structured
    auditEnabled := enabled
    auditPath := path }

/-- The settings with what a document sets and then with overrides. -/
def merge (base : Settings) (payload : List (Text × Document)) (overrides : Overrides) :
    Except SettingsError Settings := do
  (← amend base payload).override overrides

end Settings

end SourceIndex
