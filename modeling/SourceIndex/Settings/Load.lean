import SourceIndex.Settings.Merge
import SourceIndex.Toml.Reader

/-!
# Loading settings

The settings of a project: the defaults, then what the settings file in the root of the project
says, then overrides. The audit trail lies where its path leads from the root.
-/

namespace SourceIndex

/-- Why settings could not be loaded: the settings file is not well formed, or it or an override has
a fault. -/
inductive LoadError where
  | malformed
  | faulty (e : SettingsError)
  deriving DecidableEq, Repr

namespace Settings

/-- The name of the settings file. -/
def fileName : Text :=
  "codebase_indexer.toml".toList

/-- The settings of a project with the given text of its settings file, if it has one. -/
def load (file : Option Text) (overrides : Overrides) : Except LoadError Settings :=
  match Toml.read? (file.getD []) with
  | none => .error .malformed
  | some payload => (merge {} payload overrides).mapError .faulty

/-- The place of the audit trail, if one is kept, as the parts of its path; `directory` leads to
where relative paths start. -/
def trailPlace? (s : Settings) (directory : List Text) : Option (List Text) :=
  if s.auditEnabled then some (Path.resolve directory s.auditPath.text) else none

end Settings

end SourceIndex
