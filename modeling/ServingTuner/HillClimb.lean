import ServingTuner.Generator
import ServingTuner.Neighborhood

/-!
# Hill climbing

A search measures the default configuration and then climbs: it measures coordinates around home
until the neighborhood is explored, moves home to the best of them, and stops when home is the
best itself or the allowed moves are used up.

Measuring is up to a function that may remember what it was asked before; a run that it has no
answer for has failed. No run is measured twice, for its result is kept under the text of the run.
In which order the record is looked through for the best coordinate is up to a scan.
-/

namespace ServingTuner

/-- Measures a run, given the runs measured before. A failed run has no measurement. -/
abbrev Measure (α : Type) := List RunConfig → RunConfig → Option (RunMeasurement α)

/-- The order in which the record is looked through when home is to move. It is some order of the
entries, for every record, and it may be another one after every move. -/
structure Scan (α : Type) where
  order : Nat → Measured α → Measured α
  perm : ∀ moves measured, (order moves measured).Perm measured

namespace Scan

variable {α : Type}

/-- The order in which the coordinates were measured. -/
def insertion : Scan α := ⟨fun _ measured => measured, fun _ _ => .rfl⟩

end Scan

/-- The best run met. The default configuration has no coordinate. -/
structure BestRun (α : Type) where
  config : RunConfig
  measurement : RunMeasurement α
  coordinate : Option Coordinate
  feasible : Bool

/-- The state of a search. -/
structure HillClimb (α : Type) where
  generator : Generator
  names : VariantNames
  constraints : RunConstraints α
  maxSteps : UInt32 := 32
  measured : Measured α := []
  /-- The results by the texts of the runs. -/
  results : List (String × Option (RunMeasurement α)) := []
  /-- The runs handed to the measure function, in order. -/
  calls : List RunConfig := []
  /-- The number of runs handed to the measure function. -/
  measurements : Nat := 0
  /-- The number of moves of home. -/
  steps : Nat := 0
  best : Option (BestRun α) := none

namespace HillClimb

variable {α : Type}

/-- The neighborhood of a coordinate as the search sees it. -/
def neighborhood (s : HillClimb α) (home : Coordinate) : Neighborhood α :=
  ⟨s.measured, ⟨home, s.generator.space.radius⟩, s.generator.space.minMeasured⟩

/-- The text of the best run, empty where there is none. -/
def bestText (s : HillClimb α) : String := (s.best.map (·.config.text)).getD ""

/-- The result of a run: the one it had before, or a new one from the measure function. -/
def result (measure : Measure α) (config : RunConfig) (s : HillClimb α) :
    Option (RunMeasurement α) × HillClimb α :=
  let key := config.text
  match s.results.find? (·.1 == key) with
  | some (_, known) => (known, s)
  | none =>
    let answer := measure s.calls config
    (answer, { s with
      results := s.results ++ [(key, answer)]
      calls := s.calls ++ [config]
      measurements := s.measurements + 1 })

variable [Quantity α]

/-- The best coordinate around home, looked for in the order of a scan. -/
def best? (scan : Scan α) (home : Coordinate) (s : HillClimb α) : Option Coordinate :=
  { s.neighborhood home with measured := scan.order s.steps s.measured }.best? s.constraints

/-- Makes a successful run the best one if it ranks above the best so far. -/
def consider (config : RunConfig) (result : Option (RunMeasurement α))
    (coordinate : Option Coordinate) (s : HillClimb α) : HillClimb α :=
  match result with
  | none => s
  | some measurement =>
    let improves : Bool := match s.best with
      | none => true
      | some best => s.constraints.rank (some measurement) (some best.measurement) == .gt
    let feasible := s.constraints.satisfied measurement
    if improves then { s with best := some ⟨config, measurement, coordinate, feasible⟩ } else s

/-- Generates the configuration that is next, and measures it. -/
def measureNext (measure : Measure α) (coordinate : Option Coordinate) (s : HillClimb α) :
    Except Failure (Option (RunMeasurement α) × HillClimb α) := do
  let (outcome, names) := s.generator.next.outcome s.names
  let (config, generator) ← outcome
  let (result, s) := ({ s with generator, names } : HillClimb α).result measure config
  return (result, s.consider config result coordinate)

/-- Measures the configuration at a coordinate and records the result there. -/
def measureAt (measure : Measure α) (c : Coordinate) (s : HillClimb α) :
    Except Failure (HillClimb α) := do
  let generator ← s.generator.moveTo c
  let (result, s) ← ({ s with generator } : HillClimb α).measureNext measure (some c)
  return { s with measured := s.measured.set c result }

/-- Measures around home until the neighborhood is explored or has nothing left to measure, at
most `tries` coordinates. -/
def explore (measure : Measure α) (home : Coordinate) :
    Nat → HillClimb α → Except Failure (HillClimb α)
  | 0, s => .ok s
  | tries + 1, s =>
    if (s.neighborhood home).isExplored then .ok s
    else
      match (s.neighborhood home).next? with
      | none => .ok s
      | some c => do
        let s ← s.measureAt measure c
        explore measure home tries s

/-- Explores the neighborhood of home, and measures home itself in any case. A neighborhood has
no more coordinates than home and its neighbors. -/
def survey (measure : Measure α) (home : Coordinate) (s : HillClimb α) :
    Except Failure (HillClimb α) := do
  let s ← s.explore measure home ((s.neighborhood home).ball.count + 1)
  if s.measured.has home then .ok s else s.measureAt measure home

/-- Moves home to the best of its neighborhood, until home is the best itself or no move is
left. -/
def climb (measure : Measure α) (scan : Scan α) :
    Nat → Coordinate → HillClimb α → Except Failure (HillClimb α)
  | 0, home, s => s.survey measure home
  | moves + 1, home, s => do
    let s ← s.survey measure home
    match s.best? scan home with
    | none => .ok s
    | some best =>
      if best = home then .ok s
      else climb measure scan moves best { s with steps := s.steps + 1 }

/-- Measures the default configuration, unless the generator is past it. -/
def begin (measure : Measure α) (s : HillClimb α) : Except Failure (HillClimb α) :=
  match s.generator.phase with
  | .default => (s.measureNext measure none).map (·.2)
  | .stepping => .ok s

/-- Runs the search from where the generator stands. A search that ran before goes on with what it
measured, and has the moves that are left. -/
def run (measure : Option (Measure α)) (s : HillClimb α) (scan : Scan α := .insertion) :
    Except Failure (HillClimb α) :=
  match measure with
  | none => .error .measureMissing
  | some measure => do
    let s ← s.begin measure
    s.climb measure scan (s.maxSteps.toNat - s.steps) s.generator.cursor

end HillClimb

end ServingTuner
