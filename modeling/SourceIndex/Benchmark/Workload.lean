import SourceIndex.Benchmark.Arguments
import SourceIndex.Benchmark.Scenario
import SourceIndex.Benchmark.Summary
import SourceIndex.Indexer

/-!
# What the benchmark measures

The steps of a run: a project is indexed, indexed again, indexed with a change in its first file,
then searched, and a context package is assembled. Here are the inputs and the reports of these
steps; the command line takes the times.
-/

namespace SourceIndex

namespace Benchmark

/-- The scenarios that a command line asks for. -/
def Arguments.plan (a : Arguments) : Except ChoiceError (List Text) :=
  if a.runs < 1 then .error .tooFewRuns else chooseScenarios a.scenarios

/-- The indexer after the first indexing of a project, and its summary. -/
def coldIndex (files : List ProjectEntry) : Indexer × Refresh.Summary :=
  let (x, summary, _) := ({} : Indexer).index files
  (x, summary)

/-- The project with a remark at the end of its first file. -/
def touchFirst (run : Int) : List ProjectEntry → List ProjectEntry
  | [] => []
  | f :: rest =>
    { f with content := f.content ++ "\n// touched ".toList ++ Text.ofInt run ++ ['\n'] } :: rest

/-- The line that reports a run; the last two texts are times. -/
def progressLine (scenario : Text) (run : Int) (chunks : Nat) (cold change : Text) : Text :=
  '[' :: scenario ++ " run ".toList ++ Text.ofInt run ++ "] chunks=".toList ++ Text.ofNat chunks ++
    " cold=".toList ++ cold ++ " change=".toList ++ change ++ ['\n']

/-- The profile of a scenario as a JSON value. -/
def Profile.toJson (p : Profile) : Json :=
  .obj
    [("components".toList, .int p.components), ("hooks".toList, .int p.hooks),
      ("utilities".toList, .int p.utilities), ("stylesheets".toList, .int p.stylesheets),
      ("migrations".toList, .int p.migrations)]

/-- What was measured, as a JSON value. -/
def protocolJson (a : Arguments) (chosen : List Text) : Json :=
  .obj
    [("scenarios".toList, .arr (chosen.map .str)),
      ("runs_per_scenario".toList, .int a.runs),
      ("query_length".toList, .int a.query.length),
      ("fixture_profiles".toList, .obj
        ((scenarios.filter fun (name, _) => chosen.contains name).map fun (name, p) =>
          (name, p.toJson)))]

end Benchmark

end SourceIndex
