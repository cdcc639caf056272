import ServingTuner.Constraint.Basic
import ServingTuner.Coordinate.Ball

/-!
# Neighborhoods

What has been measured so far, seen from a home coordinate: how much of the ball around it is
measured, which coordinate to measure next, and which measured one is the best.
-/

namespace ServingTuner

/-- The measured coordinates, each with its result; a run that failed has none. No coordinate
occurs twice. -/
abbrev Measured (α : Type) := List (Coordinate × Option (RunMeasurement α))

namespace Measured

variable {α : Type}

/-- The entry of a coordinate. -/
def entry? (measured : Measured α) (c : Coordinate) :
    Option (Coordinate × Option (RunMeasurement α)) :=
  measured.find? (·.1 == c)

/-- Whether a coordinate was measured, be it in vain. -/
def has (measured : Measured α) (c : Coordinate) : Bool := measured.any (·.1 == c)

/-- Records the result at a coordinate, in place of an earlier one. -/
def set (measured : Measured α) (c : Coordinate) (result : Option (RunMeasurement α)) :
    Measured α :=
  if measured.has c then measured.map fun e => if e.1 == c then (c, result) else e
  else measured ++ [(c, result)]

end Measured

/-- The surroundings of a home coordinate. The neighborhood counts as explored once `minMeasured`
of its coordinates are measured. -/
structure Neighborhood (α : Type) where
  measured : Measured α
  ball : Ball
  minMeasured : UInt32

namespace Neighborhood

variable {α : Type}

/-- The coordinate in the middle. -/
def home (n : Neighborhood α) : Coordinate := n.ball.center

/-- The measured part of the neighborhood, home included. -/
def entries (n : Neighborhood α) : Measured α := n.measured.filter fun e => n.ball.contains e.1

/-- How many coordinates of the neighborhood are measured. -/
def measuredCount (n : Neighborhood α) : Nat := n.entries.length

/-- Whether enough of the neighborhood is measured. -/
def isExplored (n : Neighborhood α) : Bool := n.minMeasured.toNat ≤ n.measuredCount

/-- The next coordinate to measure: home, and then the first unmeasured neighbor. -/
def next? (n : Neighborhood α) : Option Coordinate :=
  if n.measured.has n.home then n.ball.find? fun c => !n.measured.has c else some n.home

variable [Quantity α]

/-- Whether an entry takes the place of the best one so far. Home gives way only to a better one;
of two others that rank equal the lexicographically smaller wins. -/
def beats (n : Neighborhood α) (constraints : RunConstraints α)
    (entry best : Coordinate × Option (RunMeasurement α)) : Bool :=
  match constraints.rank entry.2 best.2 with
  | .gt => true
  | .eq => best.1 != n.home && entry.1 < best.1
  | .lt => false

/-- The best of the entries seen so far and one more. -/
def keepBest (n : Neighborhood α) (constraints : RunConstraints α)
    (best : Option (Coordinate × Option (RunMeasurement α)))
    (entry : Coordinate × Option (RunMeasurement α)) :
    Option (Coordinate × Option (RunMeasurement α)) :=
  match best with
  | none => some entry
  | some best =>
    if entry.1 != best.1 && n.beats constraints entry best then some entry else some best

/-- The best measured coordinate of the neighborhood, looked for from home on. -/
def best? (n : Neighborhood α) (constraints : RunConstraints α) : Option Coordinate :=
  (n.entries.foldl (n.keepBest constraints) (n.measured.entry? n.home)).map (·.1)

end Neighborhood

end ServingTuner
