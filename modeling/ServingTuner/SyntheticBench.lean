import ServingTuner.RunConfig
import ServingTuner.Measurement
import ServingTuner.VariantNames

/-!
# A synthetic benchmark

A benchmark that computes its answers instead of serving models. Every metric is a quadratic curve
over batch size, instance count and concurrency, possibly capped, and rules say which runs fail.
-/

namespace ServingTuner

/-- The curve of one metric:
`base + batch * b + instances * n + concurrency * c + batchBend * (b - batchPeak)² +
instanceBend * (n - instancePeak)²`, at most `cap`. -/
structure MetricCurve where
  tag : String
  base : Float := 0.0
  batch : Float := 0.0
  batchPeak : Float := 0.0
  batchBend : Float := 0.0
  instances : Float := 0.0
  instancePeak : Float := 0.0
  instanceBend : Float := 0.0
  concurrency : Float := 0.0
  cap : Option Float := none

/-- What a curve reads of a model's part in a run. -/
structure Load where
  batchSize : Int
  instanceCount : Int
  concurrency : Int
  isDefault : Bool

/-- Which loads make a run fail: those that agree with every condition given. -/
structure FailureRule where
  batchSize : Option Int := none
  instanceCount : Option Int := none
  isDefault : Option Bool := none

namespace MetricCurve

/-- The value of a curve. The terms are added one after another in the order of the formula. -/
def valueAt (curve : MetricCurve) (load : Load) : Float :=
  let b := Float.ofInt load.batchSize
  let n := Float.ofInt load.instanceCount
  let c := Float.ofInt load.concurrency
  let db := b - curve.batchPeak
  let dn := n - curve.instancePeak
  let v := curve.base + curve.batch * b
  let v := v + curve.instances * n
  let v := v + curve.concurrency * c
  let v := v + curve.batchBend * (db * db)
  let v := v + curve.instanceBend * (dn * dn)
  match curve.cap with
  | some cap => if cap < v then cap else v
  | none => v

/-- The record of a curve, if its tag is that of a metric. -/
def record? (curve : MetricCurve) (load : Load) : Option (Record Float) :=
  (Metric.ofTag? curve.tag).map fun metric => ⟨metric, curve.valueAt load, 0.0⟩

end MetricCurve

/-- The load of a model: of an ensemble, the sums over its stages. -/
def Load.ofModelRun (run : ModelRun) : Load :=
  let configs := if run.isComposite then run.stages else [run.config]
  { batchSize := (configs.map (·.maxBatchSize)).foldr (· + ·) 0
    instanceCount := (configs.map (·.instanceCount)).foldr (· + ·) 0
    concurrency := run.flags.concurrency
    isDefault := run.variant == VariantName.standard run.model }

/-- Whether a load agrees with every condition of a rule. -/
def FailureRule.applies (rule : FailureRule) (load : Load) : Bool :=
  rule.batchSize.all (· == load.batchSize) && rule.instanceCount.all (· == load.instanceCount) &&
    rule.isDefault.all (· == load.isDefault)

/-- Curves for models by position, starting over when they run out, with the rules for failure and
the objectives that rank the models. -/
structure SyntheticBench where
  curves : List (List MetricCurve)
  rules : List FailureRule := []
  objectives : Objectives Float := Objectives.standard

namespace SyntheticBench

/-- The measurement of the model at a position. -/
def measureModel (bench : SyntheticBench) (position : Nat) (run : ModelRun) : RunEntry Float :=
  let load := Load.ofModelRun run
  let curves := bench.curves.getD (position % bench.curves.length) []
  ⟨ModelMeasurement.ofRecords run.variant (curves.filterMap (·.record? load)), bench.objectives⟩

/-- The measurement of a run, unless a rule makes it fail. -/
def measure (bench : SyntheticBench) (run : RunConfig) : Option (RunMeasurement Float) :=
  let loads := run.models.map Load.ofModelRun
  if loads.any fun load => bench.rules.any (·.applies load) then none
  else some ⟨run.models.mapIdx bench.measureModel⟩

end SyntheticBench

end ServingTuner
