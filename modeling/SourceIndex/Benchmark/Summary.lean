import SourceIndex.Decimal.Fixed
import SourceIndex.Json.Basic

/-!
# Summaries of measurements

The timings of some runs of one scenario, with the least, the greatest and the mean time of each
step. The mean is the exactly rounded sum of the times divided by their number, so it does not
depend on the order of the runs.
-/

namespace SourceIndex

namespace Benchmark

/-- The timings of one run of a scenario, in seconds: of the first indexing, of one that finds
nothing changed, of one that finds one file changed, of a search, and of the assembly of a context
package. The chunks are counted after the first indexing. -/
structure Run where
  coldIndex : Float
  noopIndex : Float
  singleChange : Float
  search : Float
  context : Float
  totalChunks : Int

/-- The times of one step in several runs. -/
structure Metric where
  least : Float
  greatest : Float
  mean : Float

/-- The summary of the runs of one scenario: the number of chunks of the last run, if there was one,
and the times of each step by its name, none without a run. -/
structure Summary where
  runs : Nat
  totalChunks : Option Int
  metrics : List (Text × Metric)

/-- A finite float in units of the smallest positive one; zero for others. -/
def smallestUnits (x : Float) : Int :=
  match FloatParts.ofBits x.toBits with
  | .finite negative significand exponent =>
    let units : Int := (significand * Nat.pow 2 (exponent + 1074).toNat : Nat)
    if negative then -units else units
  | _ => 0

/-- The float nearest to a number of units of the smallest positive float; of two the even one. -/
def ofSmallestUnits (units : Int) : Float :=
  let n := units.natAbs
  let shift := n.log2 + 1 - 53
  let x := (roundDiv n (Nat.pow 2 shift)).toFloat.scaleB ((shift : Int) - 1074)
  if units < 0 then -x else x

/-- The float nearest to the exact sum of finite floats. -/
def exactSum (xs : List Float) : Float :=
  ofSmallestUnits ((xs.map smallestUnits).foldr (· + ·) 0)

/-- The times of one step. -/
def Metric.of (first : Float) (others : List Float) : Metric where
  least := others.foldl (fun least x => if x < least then x else least) first
  greatest := others.foldl (fun greatest x => if x > greatest then x else greatest) first
  mean := exactSum (first :: others) / (others.length + 1).toFloat

/-- The steps of a run with their names. -/
def steps : List (Text × (Run → Float)) :=
  [("cold_index".toList, Run.coldIndex), ("noop_index".toList, Run.noopIndex),
    ("single_change".toList, Run.singleChange), ("search".toList, Run.search),
    ("assemble_context".toList, Run.context)]

/-- The summary of some runs of one scenario. -/
def summarize : List Run → Summary
  | [] => { runs := 0, totalChunks := none, metrics := [] }
  | first :: others =>
    { runs := others.length + 1
      totalChunks := some (others.getLast?.getD first).totalChunks
      metrics := steps.map fun (name, step) => (name, .of (step first) (others.map step)) }

/-- A summary as the fields of a JSON object; `time` writes a time. -/
def Summary.fields (time : Float → Json) (s : Summary) : List (Text × Json) :=
  [("runs".toList, Json.int s.runs)] ++
  (s.totalChunks.map fun n => ("total_chunks".toList, Json.int n)).toList ++
  s.metrics.map fun (name, m) =>
    (name, .obj
      [("min_seconds".toList, time m.least), ("max_seconds".toList, time m.greatest),
        ("mean_seconds".toList, time m.mean)])

end Benchmark

end SourceIndex
