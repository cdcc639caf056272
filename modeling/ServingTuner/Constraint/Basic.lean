import ServingTuner.Measurement

/-!
# Constraints

A constraint limits one metric of one model. A run is feasible when every measured metric that has
a constraint lies within it; an infeasible run has a penalty, the sum of the relative overages of
all violated limits in percent.
-/

namespace ServingTuner

/-- The limits of one metric. -/
structure Constraint (α : Type) where
  lower : Option α := none
  upper : Option α := none

/-- The constraints of one model under the tags of metrics. -/
abbrev ConstraintSet (α : Type) := Fields (Constraint α)

/-- The constraints of every model of a run, by position; a model may have none. -/
abbrev RunConstraints (α : Type) := List (Option (ConstraintSet α))

namespace Constraint

variable {α : Type} [Quantity α]

open Quantity

/-- How far a value lies beyond a limit, relative to the limit; beyond a limit of zero the
distance itself counts. -/
def relative (overage limit : α) : α :=
  if less zero (magnitude limit) then overage / magnitude limit else overage

/-- The overages of a value beyond the limits it violates. -/
def overages (c : Constraint α) (value : α) : List α :=
  let below := match c.lower with
    | some lower => if less value lower then [relative (lower - value) lower] else []
    | none => []
  let above := match c.upper with
    | some upper => if less upper value then [relative (value - upper) upper] else []
    | none => []
  below ++ above

/-- Whether a value violates no limit. -/
def allows (c : Constraint α) (value : α) : Bool :=
  !(c.lower.any (less value ·)) && !(c.upper.any (less · value))

end Constraint

namespace RunConstraints

variable {α : Type}

/-- Every record of a run that has a constraint, with that constraint, model by model. -/
def constrained (constraints : RunConstraints α) (run : RunMeasurement α) :
    List (Constraint α × Record α) :=
  (constraints.zip run.models).flatMap fun (set, entry) =>
    match set with
    | none => []
    | some set => entry.measurement.records.filterMap fun r =>
      (Fields.get? set r.metric.tag).map (·, r)

variable [Quantity α]

open Quantity

/-- Whether every constrained record of a run lies within its limits. -/
def satisfied (constraints : RunConstraints α) (run : RunMeasurement α) : Bool :=
  (constrained constraints run).all fun (c, r) => c.allows r.value

/-- The sum of the relative overages of a run, in percent. -/
def penalty (constraints : RunConstraints α) (run : RunMeasurement α) : α :=
  total ((constrained constraints run).flatMap fun (c, r) => c.overages r.value) * ofNat 100

/-- Ranks two runs, the greater one being the better. A run that failed ranks below every other, a
feasible one above an infeasible one, and of two infeasible ones the smaller penalty wins. What is
left is decided by the gain of the first over the second. -/
def rank (constraints : RunConstraints α) (a b : Option (RunMeasurement α)) : Ordering :=
  match a, b with
  | none, none => .eq
  | none, some _ => .lt
  | some _, none => .gt
  | some a, some b =>
    match satisfied constraints a, satisfied constraints b with
    | true, false => .gt
    | false, true => .lt
    | true, true => byGain a b
    | false, false =>
      let own := penalty constraints a
      let other := penalty constraints b
      if equal own other then byGain a b
      else if less own other then .gt else .lt
where
  /-- Ranks two runs by the sign of the gain of the first over the second. -/
  byGain (a b : RunMeasurement α) : Ordering :=
    let gain := a.gain b
    if less zero gain then .gt else if less gain zero then .lt else .eq

end RunConstraints

end ServingTuner
