import ServingTuner.Coordinate.Basic

/-!
# Neighbors of a coordinate

A ball is a center with a radius. Its neighbors are met one at a time by a cursor that counts
through the offsets from the center like an odometer: slot 0 is the most significant wheel, and
the wheel of a slot runs from the least offset that keeps the slot at or above zero, but not below
the negated radius, up to the radius. The zero offset, which is the center itself, is passed over.

A slot beyond the 32-bit range wraps. Only the current offsets are stored, so a ball whose
neighbors are too many to list can still be walked.
-/

namespace ServingTuner

/-- The coordinates within a distance of a center. -/
structure Ball where
  center : Coordinate
  radius : UInt32
  deriving DecidableEq

namespace Ball

/-- Whether a coordinate has the center's size and lies within the radius. -/
def contains (ball : Ball) (c : Coordinate) : Bool :=
  c.size == ball.center.size && ball.center.distance c ≤ ball.radius

/-! ### Offsets -/

/-- The least offset of a slot. -/
def leastOffset (radius slot : UInt32) : Int := max (-(radius.toNat : Int)) (-(slot.toNat : Int))

/-- The offsets after the given ones: the last wheel below its end moves on, and the wheels after
it start anew. There are none when every wheel is at its end. -/
def advance (radius : UInt32) : List UInt32 → List Int → Option (List Int)
  | _ :: slots, d :: ds =>
    match advance radius slots ds with
    | some ds' => some (d :: ds')
    | none =>
      if d < radius.toNat then some ((d + 1) :: slots.map (leastOffset radius)) else none
  | _, _ => none

/-- The offsets themselves, or those after them if they are all zero. -/
def skipCenter (ball : Ball) (offsets : List Int) : Option (List Int) :=
  if offsets.all (· == 0) then advance ball.radius ball.center.slots offsets else some offsets

/-- The coordinate at the given offsets from the center, with slots that wrap. -/
def shifted (ball : Ball) (offsets : List Int) : Coordinate :=
  ⟨List.zipWith (fun slot d => UInt32.ofInt (slot.toNat + d)) ball.center.slots offsets⟩

/-- The number of neighbors: every wheel contributes the number of its positions, and the center
does not count. -/
def count (ball : Ball) : Nat :=
  (ball.center.slots.map fun slot =>
    min ball.radius.toNat slot.toNat + ball.radius.toNat + 1).foldr (· * ·) 1 - 1

/-! ### Cursors -/

/-- A position among the neighbors of a ball: the offsets of a neighbor, or the end. -/
structure Cursor (ball : Ball) where
  offsets : Option (List Int)
  deriving DecidableEq

/-- The position of the first neighbor. -/
def first (ball : Ball) : ball.Cursor :=
  ⟨ball.skipCenter (ball.center.slots.map (leastOffset ball.radius))⟩

/-- The position after all neighbors. -/
def last (ball : Ball) : ball.Cursor := ⟨none⟩

namespace Cursor

variable {ball : Ball}

/-- The neighbor at a position; there is none at the end. -/
def here? (cursor : ball.Cursor) : Option Coordinate := cursor.offsets.map ball.shifted

/-- The next position; the end stays the end. -/
def next (cursor : ball.Cursor) : ball.Cursor :=
  ⟨cursor.offsets.bind fun ds => (advance ball.radius ball.center.slots ds).bind ball.skipCenter⟩

/-- The next neighbors, at most `n` of them, and the position after those. -/
def take : Nat → ball.Cursor → List Coordinate × ball.Cursor
  | 0, cursor => ([], cursor)
  | n + 1, cursor =>
    match cursor.here? with
    | none => ([], cursor)
    | some c =>
      let (others, stop) := take n cursor.next
      (c :: others, stop)

/-- The first of the next `n` neighbors that satisfies `p`. -/
def find? (p : Coordinate → Bool) : Nat → ball.Cursor → Option Coordinate
  | 0, _ => none
  | n + 1, cursor =>
    match cursor.here? with
    | none => none
    | some c => if p c then some c else find? p n cursor.next

end Cursor

/-- All neighbors, in the order of a walk. -/
def neighbors (ball : Ball) : List Coordinate := (ball.first.take ball.count).1

/-- The first neighbor that satisfies `p`. -/
def find? (ball : Ball) (p : Coordinate → Bool) : Option Coordinate :=
  ball.first.find? p ball.count

/-- Looking for a neighbor is looking through the list of those that a walk would meet. -/
theorem Cursor.find?_eq_take (ball : Ball) (p : Coordinate → Bool) (n : Nat) (cursor : ball.Cursor) :
    cursor.find? p n = (cursor.take n).1.find? p := by
  induction n generalizing cursor with
  | zero => rfl
  | succ n ih =>
    unfold Cursor.find? Cursor.take
    cases cursor.here? with
    | none => rfl
    | some c =>
      by_cases h : p c
      · simp [h]
      · simp [h, ih]

theorem find?_eq (ball : Ball) (p : Coordinate → Bool) : ball.find? p = ball.neighbors.find? p :=
  Cursor.find?_eq_take ball p ball.count ball.first

end Ball

end ServingTuner
