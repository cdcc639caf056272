/-!
# The shortest decimal of a double

Every finite double stands for an interval of reals: those that round to it. The decimal chosen
for it is a point of that interval with as few digits as possible, and of those the nearest to the
double itself; of two that are equally near, the one whose last digit is even.

All of it is exact arithmetic on natural numbers. A magnitude is `significand * 2 ^ exponent`, and
quarters of the last binary place are enough to name the ends of its interval.

Printers that scale by powers of ten rounded to 64 bits, as JSON libraries have them, do not always
find this decimal. They shrink the interval by their rounding error, so they miss a decimal that
lies very close to one of its ends and write longer digits (73.42415132000001 for 73.42415132); and
of two decimals that are almost equally near they can take the other one. This concerns about one
double in a thousand, and the digits still read back as that double.
-/

namespace ServingTuner.Decimal

/-- A positive number `significand * 2 ^ exponent`. -/
structure Binary where
  significand : Nat
  exponent : Int

/-- The leading bit of a significand, which a double does not store. -/
def hiddenBit : Nat := 0x10000000000000

/-- What the bits of a double say. -/
inductive Reading where
  | notANumber
  | infinite (negative : Bool)
  | finite (negative : Bool) (magnitude : Binary)

/-- Reads sign, exponent and fraction off the 64 bits of a double. -/
def reading (x : Float) : Reading :=
  let bits := x.toBits
  let negative := bits >>> 63 == 1
  let field := (bits >>> 52 &&& 0x7FF).toNat
  let fraction := (bits &&& 0xFFFFFFFFFFFFF).toNat
  if field = 2047 then
    if fraction = 0 then .infinite negative else .notANumber
  else if field = 0 then .finite negative ⟨fraction, -1074⟩
  else .finite negative ⟨hiddenBit + fraction, (field : Int) - 1075⟩

/-- The fraction `numerator / denominator` that a power of a base stands for. -/
def powerFraction (base : Nat) (exponent : Int) : Nat × Nat :=
  (Nat.pow base exponent.toNat, Nat.pow base (-exponent).toNat)

namespace Binary

/-- Whether the interval below the number is half as wide as the one above: this is so at a power
of two, where the spacing of the doubles changes, unless the spacing has reached its minimum. -/
def narrowBelow (b : Binary) : Bool := b.significand == hiddenBit && b.exponent != -1074

/-- The two ends of the interval of reals that round to the number, in quarters of its last
place. -/
def ends (b : Binary) : Nat × Nat :=
  (4 * b.significand - (if b.narrowBelow then 1 else 2), 4 * b.significand + 2)

/-- Factors that bring a count of quarters and a multiple of `10 ^ place` to one scale: `x`
quarters equal `d * 10 ^ place` exactly when `x * scales.1 = d * scales.2`. -/
def scales (b : Binary) (place : Int) : Nat × Nat :=
  let quarter := powerFraction 2 (b.exponent - 2)
  let unit := powerFraction 10 place
  (quarter.1 * unit.2, unit.1 * quarter.2)

/-- Whether `d * 10 ^ place` rounds to the number. The ends of the interval do so when the
significand is even. -/
def accepts (b : Binary) (place : Int) (d : Nat) : Bool :=
  let (left, right) := b.scales place
  let point := d * right
  let (low, high) := b.ends
  if b.significand % 2 = 0 then low * left ≤ point && point ≤ high * left
  else low * left < point && point < high * left

/-- Of the two multiples of `10 ^ place` around the number, the one that rounds to it; if both do,
the nearer, and the even one of two that are equally near. -/
def candidate? (b : Binary) (place : Int) : Option Nat :=
  let (left, right) := b.scales place
  let value := 4 * b.significand * left
  let below := value / right
  let remainder := value % right
  let nearest :=
    if 2 * remainder < right then below
    else if right < 2 * remainder then below + 1
    else below + below % 2
  let other := if nearest = below then below + 1 else below
  if b.accepts place nearest then some nearest
  else if b.accepts place other then some other
  else none

/-- The place of the number's first decimal digit. -/
def leadingPlace (b : Binary) : Int :=
  let (numerator, denominator) := powerFraction 2 b.exponent
  let numerator := numerator * b.significand
  if denominator ≤ numerator then (Nat.toDigits 10 (numerator / denominator)).length - 1
  else -(Nat.toDigits 10 ((denominator - 1) / numerator)).length

/-- Tries the places downwards from `place`, at most `tries` of them. -/
def search (b : Binary) (place : Int) : Nat → Nat × Int
  | 0 => (b.significand, 0)
  | tries + 1 =>
    match b.candidate? place with
    | some d => (d, place)
    | none => b.search (place - 1) tries

/-- A multiple of a power of ten that rounds to the number, with the greatest such power.
Seventeen digits always suffice. -/
def shortest (b : Binary) : Nat × Int := b.search b.leadingPlace 17

end Binary

/-- Significant digits, the first and the last of them not zero, and the place of the first. -/
structure Digits where
  digits : List Char
  place : Int

/-- The digits of `d * 10 ^ place` without zeros at the end. -/
def Digits.ofMultiple (d : Nat) (place : Int) : Digits :=
  let written := Nat.toDigits 10 d
  ⟨(written.reverse.dropWhile (· == '0')).reverse, place + (written.length - 1)⟩

/-- The shortest digits that read back as a positive magnitude. -/
def Binary.digits (b : Binary) : Digits :=
  let (d, place) := b.shortest
  Digits.ofMultiple d place

end ServingTuner.Decimal
