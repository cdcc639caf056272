/-!
# Coordinates

A coordinate is a point of the search space, one unsigned 32-bit slot per dimension. Distance
between coordinates is the greatest difference of a slot.
-/

namespace ServingTuner

/-- A point of the search space. -/
structure Coordinate where
  slots : List UInt32
  deriving DecidableEq

namespace Coordinate

/-- The number of slots. -/
def size (c : Coordinate) : Nat := c.slots.length

/-- Coordinates are ordered lexicographically, with slot 0 the most significant. -/
instance : LT Coordinate := ⟨fun a b => a.slots < b.slots⟩

/-- Lists of slots can be compared. -/
instance : DecidableLT Coordinate := fun a b => inferInstanceAs (Decidable (a.slots < b.slots))

/-- The difference of two slots. The smaller is taken from the larger, so it never wraps. -/
def gap (a b : UInt32) : UInt32 := if a ≤ b then b - a else a - b

/-- The greatest difference of a slot between two coordinates of one size, 0 without slots. -/
def distance (a b : Coordinate) : UInt32 :=
  (List.zipWith gap a.slots b.slots).foldl max 0

/-- The slots between brackets. -/
def text (c : Coordinate) : String :=
  "[" ++ String.intercalate ", " (c.slots.map toString) ++ "]"

end Coordinate

end ServingTuner
