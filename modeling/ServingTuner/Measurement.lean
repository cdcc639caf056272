import ServingTuner.Fields
import ServingTuner.Record

/-!
# Measurements

A model's measurement holds at most one record per metric. A run's measurement holds one entry per
model, in the order of the run, together with the objectives by which the model is ranked. The
gain of one measurement over another is a weighted mean over objectives, and of runs the mean over
models.
-/

namespace ServingTuner

/-- Weights under the tags of metrics. -/
abbrev Objectives (α : Type) := Fields α

/-- Throughput alone. -/
def Objectives.standard {α : Type} [Quantity α] : Objectives α :=
  [(Metric.throughput.tag, Quantity.ofNat 1)]

/-- What was measured of one model's variant. -/
structure ModelMeasurement (α : Type) where
  variant : String := ""
  records : List (Record α) := []

namespace ModelMeasurement

variable {α : Type}

/-- Puts a record in place of the one of its metric, or at the end. -/
def put (r : Record α) : List (Record α) → List (Record α)
  | [] => [r]
  | x :: rest => if x.metric = r.metric then r :: rest else x :: put r rest

/-- Adds a record, or replaces the one of its metric. -/
def set (m : ModelMeasurement α) (r : Record α) : ModelMeasurement α :=
  { m with records := put r m.records }

/-- The measurement of a variant with records set one after another. -/
def ofRecords (variant : String) (records : List (Record α)) : ModelMeasurement α :=
  records.foldl set ⟨variant, []⟩

/-- The record of a tag. -/
def find? (m : ModelMeasurement α) (tag : String) : Option (Record α) :=
  m.records.find? (·.metric.tag == tag)

/-- The objectives that both measurements have a record for: weight, own record and the other's
record. -/
def shared (mine theirs : ModelMeasurement α) (objectives : Objectives α) :
    List (α × Record α × Record α) :=
  objectives.filterMap fun (tag, weight) =>
    match mine.find? tag, theirs.find? tag with
    | some a, some b => some (weight, a, b)
    | _, _ => none

variable [Quantity α]

open Quantity

/-- The gain over another measurement in percent, weighted by the objectives that both have a
record for. Without any weight there is no gain. -/
def gain (mine theirs : ModelMeasurement α) (objectives : Objectives α) : α :=
  let common := shared mine theirs objectives
  let weights := total (common.map (·.1))
  if atMost weights zero then zero
  else total (common.map fun (weight, a, b) => weight / weights * a.gainOver b)

end ModelMeasurement

/-- A model's measurement with the objectives that rank it. -/
structure RunEntry (α : Type) where
  measurement : ModelMeasurement α
  objectives : Objectives α

/-- What was measured of one run, model by model. -/
structure RunMeasurement (α : Type) where
  models : List (RunEntry α) := []

namespace RunMeasurement

variable {α : Type} [Quantity α]

open Quantity

/-- The mean over the models of their gains over another run, each by its own objectives. Models
that only one of the runs has do not count. -/
def gain (mine theirs : RunMeasurement α) : α :=
  let gains := List.zipWith
    (fun a b => a.measurement.gain b.measurement a.objectives) mine.models theirs.models
  if gains.isEmpty then zero else total gains / ofNat gains.length

/-- Whether a run is an improvement over another. -/
def improvesOn (mine theirs : RunMeasurement α) : Bool := less zero (mine.gain theirs)

/-- The sum of one metric over the models that report it. -/
def aggregate (run : RunMeasurement α) (tag : String) : Option (Record α) :=
  match run.models.filterMap (·.measurement.find? tag) with
  | [] => none
  | first :: rest =>
    some (rest.foldl (fun sum r => { sum with value := sum.value + r.value }) first)

end RunMeasurement

end ServingTuner
