import SourceIndex.Benchmark.Workload
import SourceIndex.Json.Writer
import Std.Time

/-!
# The benchmark command

Runs the steps of the benchmark on the chosen scenarios, reports each run on a line of its own, and
prints a summary of all times as JSON. A faulty command line ends with code 2 and a faulty choice of
scenarios or runs with code 1.
-/

open SourceIndex SourceIndex.Benchmark

namespace SourceIndex.Benchmark

/-- How to call the command. -/
def usage : String :=
  "usage: benchmark [-h] [--runs RUNS] [--scenarios SCENARIOS] [--query QUERY]"

/-- The value of a computation and the seconds that it took. -/
def timed {α : Type} (compute : Unit → α) : IO (α × Float) := do
  let started ← IO.monoNanosNow
  let a ← IO.lazyPure compute
  let ended ← IO.monoNanosNow
  return (a, (ended - started).toFloat / 1.0e9)

/-- A time in seconds as a JSON number with nine places. -/
def secondsJson (x : Float) : Json :=
  match FloatParts.ofBits x.toBits with
  | .finite negative significand exponent =>
    .num (.decimal negative (scaledValue 9 significand exponent) (-9))
  | _ => .null

/-- A time in seconds as a progress line shows it. -/
def secondsText (x : Float) : Text :=
  fixedText 4 x ++ ['s']

/-- Runs the steps of one run and reports it. -/
def measure (scenario : Text) (profile : Profile) (run : Nat) (query : Text) : IO Run := do
  let files := profile.files
  let ((x, summary), cold) ← timed fun _ => coldIndex files
  let ((x, _), noop) ← timed fun _ => x.index files
  let ((x, _), change) ← timed fun _ => x.index (touchFirst run files)
  let (_, search) ← timed fun _ => x.search query none
  let (_, context) ← timed fun _ => x.context query none
  IO.print <| String.ofList <|
    progressLine scenario run summary.totalChunks (secondsText cold) (secondsText change)
  return {
    coldIndex := cold
    noopIndex := noop
    singleChange := change
    search := search
    context := context
    totalChunks := summary.totalChunks }

/-- Runs the chosen scenarios and prints the summary. -/
def measureAll (a : Arguments) (chosen : List Text) : IO Unit := do
  let mut summaries : List (Text × Json) := []
  for name in chosen do
    let some profile := profile? name | continue
    let mut runs : List Run := []
    for i in List.range a.runs.toNat do
      runs := runs ++ [← measure name profile (i + 1) a.query]
    summaries := summaries ++ [(name, .obj ((summarize runs).fields secondsJson))]
  let now := Std.Time.DateTime.ofTimestamp (← Std.Time.Timestamp.now) .UTC
  let summary := Json.obj
    [("timestamp_utc".toList, .string now.toISO8601String),
      ("protocol".toList, protocolJson a chosen), ("scenarios".toList, .obj summaries)]
  IO.println (String.ofList summary.writeIndented)

end SourceIndex.Benchmark

/-- Runs the benchmark that the command line asks for. -/
def main (args : List String) : IO UInt32 := do
  match Arguments.read (args.map String.toList) with
  | .error .help =>
    IO.println usage
    return 0
  | .error .fault =>
    IO.eprintln usage
    return 2
  | .ok a =>
    match a.plan with
    | .error e =>
      IO.eprintln (String.ofList e.message)
      return 1
    | .ok chosen =>
      measureAll a chosen
      return 0
