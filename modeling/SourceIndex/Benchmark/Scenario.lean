import SourceIndex.Benchmark.Fixture
import SourceIndex.Text.Blank
import SourceIndex.Text.Case
import SourceIndex.Text.Quoted

/-!
# Scenarios

The generated projects that measurements are taken on, and the list of them that a command line
names.
-/

namespace SourceIndex

namespace Benchmark

/-- The scenarios with their profiles, from small to large. -/
def scenarios : List (Text × Profile) :=
  [("small".toList, ⟨10, 5, 5, 1, 1⟩), ("medium".toList, ⟨60, 20, 30, 4, 6⟩),
    ("large".toList, ⟨200, 60, 100, 10, 20⟩)]

/-- The profile of a scenario. -/
def profile? (scenario : Text) : Option Profile :=
  scenarios.lookup scenario

/-- A fault in a choice of scenarios or runs. -/
inductive ChoiceError where
  | noScenario
  | unknownScenarios (names : List Text)
  | tooFewRuns
  deriving DecidableEq, Repr

/-- Texts in the order of their code points, each once. -/
def sortedDistinct (texts : List Text) : List Text :=
  texts.eraseDups.mergeSort fun a b => !b.precedes a

/-- The message that reports a fault. -/
def ChoiceError.message : ChoiceError → Text
  | noScenario => "At least one scenario is required.".toList
  | unknownScenarios names =>
    "Unknown scenarios: ".toList ++ Text.quotedList (sortedDistinct names) ++
      ". Allowed: ".toList ++ Text.quotedList (sortedDistinct (scenarios.map Prod.fst)) ++ ['.']
  | tooFewRuns => "--runs must be >= 1".toList

/-- The scenarios that a list with commas names, in lower case and each at its first place. -/
def chooseScenarios (raw : Text) : Except ChoiceError (List Text) :=
  let names := ((raw.splitOn ',').filter fun item => !Text.isBlank item).map fun item =>
    (Text.trim item).lower
  let unknown := names.filter fun name => (profile? name).isNone
  if names.isEmpty then .error .noScenario
  else if unknown.isEmpty then .ok names.eraseDups
  else .error (.unknownScenarios unknown)

end Benchmark

end SourceIndex
