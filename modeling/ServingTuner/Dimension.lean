import ServingTuner.Failure
import ServingTuner.Fields

/-!
# Dimensions

A dimension is one axis that can be tuned. Its slot of a coordinate grows into a value by a law:
an exponential dimension doubles with every step and a linear one counts from one. A slot below
the dimension's minimum has the value of the minimum.

A dimension set lines up the dimensions of several search units, so that one flat coordinate gives
every unit its values.
-/

namespace ServingTuner

/-- How the value of a dimension grows with its slot. -/
inductive GrowthLaw where
  | linear
  | exponential
  deriving DecidableEq

namespace GrowthLaw

/-- The name of a law. -/
def name : GrowthLaw → String
  | linear => "linear"
  | exponential => "exponential"

/-- The law stored under a number. -/
def ofNumber? : Nat → Option GrowthLaw
  | 0 => some linear
  | 1 => some exponential
  | _ => none

/-- The name of the law stored under a number. -/
def nameOfNumber (n : Nat) : String := ((ofNumber? n).map name).getD "unknown"

end GrowthLaw

/-- One axis of the search space. -/
structure Dimension where
  name : String
  law : GrowthLaw
  min : UInt32 := 0
  deriving DecidableEq

/-- The name of the axis for batch sizes. -/
def Dimension.batchSize : String := "max_batch_size"

/-- The name of the axis for instance counts. -/
def Dimension.instanceCount : String := "instance_count"

/-- The name of the axis for concurrencies. -/
def Dimension.concurrency : String := "concurrency"

namespace Dimension

/-- The greatest exponent of an exponential dimension. A larger one would leave the signed 64-bit
range. -/
def maxExponent : UInt32 := 62

/-- The value of a slot. -/
def valueAt (dimension : Dimension) (slot : UInt32) : Int :=
  let effective := max slot dimension.min
  match dimension.law with
  | .exponential => Nat.pow 2 (Min.min effective maxExponent).toNat
  | .linear => effective.toNat + 1

end Dimension

/-- One slot of a coordinate: the search unit it belongs to and its dimension. -/
structure Slot where
  unit : Nat
  dimension : Dimension
  deriving DecidableEq

/-- The values of one search unit under the names of its dimensions. -/
abbrev UnitValues := Fields Int

/-- The dimensions of several search units, slot by slot. -/
structure DimensionSet where
  slots : List Slot := []
  units : Nat := 0
  deriving DecidableEq

namespace DimensionSet

/-- Appends the dimensions of the next search unit. Units come in order, each exactly once. -/
def add (set : DimensionSet) (unit : Nat) (dimensions : List Dimension) :
    Except Failure DimensionSet :=
  if unit = set.units then
    .ok ⟨set.slots ++ dimensions.map (Slot.mk unit), set.units + 1⟩
  else .error (.unitOutOfOrder unit set.units)

/-- The values of one search unit; of two dimensions of one name the later counts. -/
def unitValues (located : List (Slot × UInt32)) (unit : Nat) : UnitValues :=
  Fields.ofList <| located.filterMap fun (slot, value) =>
    if slot.unit = unit then some (slot.dimension.name, slot.dimension.valueAt value) else none

/-- The values of every search unit at a coordinate. -/
def valuesAt (set : DimensionSet) (c : Coordinate) : Except Failure (List UnitValues) :=
  if c.size = set.slots.length then
    .ok ((List.range set.units).map (unitValues (set.slots.zip c.slots)))
  else .error (.unresolvable c set.slots.length)

/-- The coordinate with every slot at its dimension's minimum. -/
def start (set : DimensionSet) : Coordinate := ⟨set.slots.map (·.dimension.min)⟩

/-- The dimensions of one search unit, in slot order. -/
def dimensionsOf (set : DimensionSet) (unit : Nat) : List Dimension :=
  (set.slots.filter (·.unit == unit)).map (·.dimension)

end DimensionSet

end ServingTuner
