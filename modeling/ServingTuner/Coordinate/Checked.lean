import ServingTuner.Failure

/-!
# Checked operations on coordinates

Building a coordinate from integers, and raising one of its slots to a bound.
-/

namespace ServingTuner.Coordinate

/-- The values as slots, counted from slot `index`. The first value that fits no slot is
reported. -/
def slotsOf (index : Nat) : List Int → Except Failure (List UInt32)
  | [] => .ok []
  | value :: rest =>
    if value < 0 ∨ UInt32.size ≤ value then .error (.slotOutOfRange index value)
    else (slotsOf (index + 1) rest).map (UInt32.ofInt value :: ·)

/-- The coordinate with the given values. -/
def ofInts (values : List Int) : Except Failure Coordinate :=
  (slotsOf 0 values).map Coordinate.mk

/-- The coordinate with one slot raised to `bound` where it lies below. -/
def raiseSlot (c : Coordinate) (slot : Nat) (bound : UInt32) : Except Failure Coordinate :=
  if slot < c.size then .ok ⟨c.slots.modify slot (max · bound)⟩
  else .error (.noSuchSlot slot c.size)

end ServingTuner.Coordinate
