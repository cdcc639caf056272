/-!
# Quantities

Measured values, weights and limits are numbers of one type. A running search uses doubles, and the
laws of ranking are about exact rationals, so everything that computes with measurements is stated
over the operations collected here. Comparisons are Boolean tests of their own because on doubles
none of them is the negation of another.
-/

namespace ServingTuner

/-- The operations on measured values. -/
class Quantity (α : Type) extends Add α, Sub α, Mul α, Div α, Neg α where
  ofNat : Nat → α
  less : α → α → Bool
  atMost : α → α → Bool
  equal : α → α → Bool

namespace Quantity

/-- Doubles, with their comparisons. -/
instance : Quantity Float where
  ofNat := Float.ofNat
  less a b := a < b
  atMost a b := a ≤ b
  equal a b := a == b

/-- Exact rationals. -/
instance : Quantity Rat where
  ofNat n := n
  less a b := a < b
  atMost a b := a ≤ b
  equal a b := a == b

variable {α : Type} [Quantity α]

/-- The number zero. -/
def zero : α := ofNat 0

/-- The distance of a number from zero. -/
def magnitude (x : α) : α := if less x zero then -x else x

/-- The sum of a list, added up from the left. -/
def total (xs : List α) : α := xs.foldl (· + ·) zero

end Quantity

end ServingTuner
