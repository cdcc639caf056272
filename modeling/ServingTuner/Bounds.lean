import ServingTuner.Failure

/-!
# Bounds

The hard limits that every generated variant is clamped to, the ways to choose a concurrency, and
multiplication that stops at the greatest signed 64-bit integer.
-/

namespace ServingTuner

/-! ### Saturating multiplication -/

/-- The greatest signed 64-bit integer. -/
def maxSigned : Int := 9223372036854775807

/-- The product of two integers, or the greatest signed 64-bit integer where the first factor
exceeds that integer's quotient by the second. For factors that are not negative this is the exact
product, cut off at the greatest integer. -/
def saturatingProduct (a b : Int) : Int :=
  if a = 0 ∨ b = 0 then 0
  else if Int.tdiv maxSigned b < a then maxSigned
  else a * b

/-- The saturating product as work that does nothing besides. -/
def plainProduct (a b : Int) : Id Int := pure (saturatingProduct a b)

/-! ### Ranges -/

/-- An optional lower and an optional upper limit. -/
structure Limits where
  lower : Option Int := none
  upper : Option Int := none
  deriving DecidableEq

namespace Limits

/-- Brings a value below the upper limit and then above the lower one, so that the lower one wins
where the two contradict each other. -/
def clamp (limits : Limits) (value : Int) : Int :=
  let capped := match limits.upper with
    | some upper => min value upper
    | none => value
  match limits.lower with
  | some lower => max capped lower
  | none => capped

/-- A limit that is set has to be positive. -/
def checkPositive (side : BoundSide) (quantity : String) : Option Int → Except Failure Unit
  | some value =>
    if value ≤ 0 then .error (.boundNotPositive side quantity value) else .ok ()
  | none => .ok ()

/-- A lower limit must not exceed an upper one. -/
def checkOrder (quantity : String) : Option Int → Option Int → Except Failure Unit
  | some lower, some upper =>
    if upper < lower then .error (.boundsCrossed quantity lower upper) else .ok ()
  | _, _ => .ok ()

/-- Reports the first fault of a pair of limits. -/
def check (limits : Limits) (quantity : String) : Except Failure Unit := do
  checkPositive .lower quantity limits.lower
  checkPositive .upper quantity limits.upper
  checkOrder quantity limits.lower limits.upper

end Limits

/-! ### Bounds of a search -/

/-- The limits on batch size, instance count and concurrency, and the factor between the product
of the first two and the concurrency. -/
structure Bounds where
  batchSize : Limits := {}
  instanceCount : Limits := {}
  concurrency : Limits := {}
  multiplier : Int := 2
  deriving DecidableEq

namespace Bounds

/-- Reports the first limit that is not positive or contradicts its partner. -/
def check (bounds : Bounds) : Except Failure Unit := do
  bounds.batchSize.check "model batch size"
  bounds.instanceCount.check "instance count"
  bounds.concurrency.check "concurrency"
  if bounds.multiplier ≤ 0 then .error (.multiplierNotPositive bounds.multiplier) else .ok ()

/-- The concurrency that an ensemble takes as it is: the upper limit, or else the lower one. -/
def forcedConcurrency (bounds : Bounds) : Option Int :=
  bounds.concurrency.upper <|> bounds.concurrency.lower

/-- The concurrency that keeps `multiplier` full batches waiting for every instance. How products
are formed is left open. -/
def formulaConcurrencyWith {m : Type → Type} [Monad m] (product : Int → Int → m Int)
    (bounds : Bounds) (batchSize instanceCount : Int) : m Int := do
  let full ← product batchSize instanceCount
  product full bounds.multiplier

/-- The concurrency by the formula with saturating products. -/
def formulaConcurrency (bounds : Bounds) (batchSize instanceCount : Int) : Int :=
  (bounds.formulaConcurrencyWith plainProduct batchSize instanceCount).run

end Bounds

/-! ### Concurrency modes -/

/-- How the concurrency of a variant is chosen: by the formula, or by the unit's concurrency
dimension where it has one. -/
inductive ConcurrencyMode where
  | formula
  | coordinate
  deriving DecidableEq

namespace ConcurrencyMode

/-- The name of a mode in settings. -/
def name : ConcurrencyMode → String
  | formula => "formula"
  | coordinate => "coordinate"

/-- The mode of a name. -/
def ofName (name : String) : Except Failure ConcurrencyMode :=
  if name = "formula" then .ok formula
  else if name = "coordinate" then .ok coordinate
  else .error (.unknownConcurrencyMode name)

/-- The mode stored under a number. -/
def ofNumber? : Nat → Option ConcurrencyMode
  | 0 => some formula
  | 1 => some coordinate
  | _ => none

/-- The name of the mode stored under a number. -/
def nameOfNumber (n : Nat) : String := ((ofNumber? n).map ConcurrencyMode.name).getD "unknown"

end ConcurrencyMode

end ServingTuner
