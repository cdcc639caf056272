import ServingTuner.Failure
import ServingTuner.Metric
import ServingTuner.Quantity

/-!
# Records

A record is one value of one metric. Comparing, subtracting and relative gain read the metric's
polarity, so that better always means better for that metric.
-/

namespace ServingTuner

/-- One measured value. -/
structure Record (α : Type) where
  metric : Metric
  value : α
  timestamp : α

namespace Record

variable {α : Type}

/-- A record of the metric with the given tag. -/
def ofTag (tag : String) (value timestamp : α) : Except Failure (Record α) :=
  match Metric.ofTag? tag with
  | some metric => .ok ⟨metric, value, timestamp⟩
  | none => .error (.unknownMetric tag)

variable [Quantity α]

open Quantity

/-- Ranks two records of one metric: the greater one is the better one. -/
def compare (a b : Record α) : Ordering :=
  if equal a.value b.value then .eq
  else
    let order := if less b.value a.value then Ordering.gt else .lt
    match a.metric.polarity with
    | .higherIsBetter => order
    | .lowerIsBetter => order.swap

/-- Whether the first of two records of one metric is an improvement over the second. -/
def improvesOn (a b : Record α) : Bool := compare a b == .gt

/-- Whether two records have one metric and equal values. -/
def same (a b : Record α) : Bool := a.metric == b.metric && equal a.value b.value

/-- The sum of two records of one metric. -/
def add (a b : Record α) : Except Failure (Record α) :=
  if a.metric = b.metric then .ok { a with value := a.value + b.value }
  else .error (.metricsNotAdded a.metric.tag b.metric.tag)

/-- The difference of two records of one metric, positive where the first is the better one. -/
def subtract (a b : Record α) : Except Failure (Record α) :=
  if a.metric = b.metric then
    match a.metric.polarity with
    | .higherIsBetter => .ok { a with value := a.value - b.value }
    | .lowerIsBetter => .ok { a with value := b.value - a.value }
  else .error (.metricsNotSubtracted b.metric.tag a.metric.tag)

/-- The gain of a candidate over a baseline in percent of the baseline; none over a baseline of
zero. -/
def gainOver (candidate baseline : Record α) : α :=
  if equal baseline.value zero then zero
  else
    let difference := candidate.value - baseline.value
    let gain := match baseline.metric.polarity with
      | .higherIsBetter => difference
      | .lowerIsBetter => -difference
    gain / baseline.value * ofNat 100

end Record

end ServingTuner
