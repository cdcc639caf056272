import ServingTuner.Decimal.Shortest

/-!
# Writing a double

A layout fixes where positional notation ends and whether a whole number keeps a decimal point.
The digits are always the shortest ones that read back. Elsewhere a number is written in
scientific notation, with a signed exponent of at least two digits.
-/

namespace ServingTuner.Decimal

/-- How a finite double is written: positionally when the place of its first digit lies between
the two bounds, and with or without `.0` when it is whole. -/
structure Layout where
  lowest : Int
  highest : Int
  keepsPoint : Bool
  notANumber : String
  infinite : String

namespace Layout

/-- Digits in positional notation, with zeros where the digits do not reach the point. -/
def positional (layout : Layout) (d : Digits) : String :=
  let count : Int := d.place + 1
  if count ≤ 0 then
    "0." ++ String.ofList (List.replicate (-count).toNat '0' ++ d.digits)
  else
    let whole := d.digits.take count.toNat
    let padding := List.replicate (count.toNat - d.digits.length) '0'
    let fraction := d.digits.drop count.toNat
    let tail := if fraction.isEmpty then (if layout.keepsPoint then ".0" else "")
      else "." ++ String.ofList fraction
    String.ofList (whole ++ padding) ++ tail

/-- Digits in scientific notation. -/
def scientific (d : Digits) : String :=
  let first := String.ofList (d.digits.take 1)
  let rest := d.digits.drop 1
  let mantissa := if rest.isEmpty then first else first ++ "." ++ String.ofList rest
  let exponent := toString d.place.natAbs
  let padded := if exponent.length < 2 then "0" ++ exponent else exponent
  mantissa ++ "e" ++ (if d.place < 0 then "-" else "+") ++ padded

/-- The text of a positive magnitude or of zero. -/
def magnitude (layout : Layout) (b : Binary) : String :=
  if b.significand = 0 then (if layout.keepsPoint then "0.0" else "0")
  else
    let d := b.digits
    if layout.lowest ≤ d.place && d.place ≤ layout.highest then layout.positional d
    else scientific d

/-- The text of a double. -/
def write (layout : Layout) (x : Float) : String :=
  match reading x with
  | .notANumber => layout.notANumber
  | .infinite negative => (if negative then "-" else "") ++ layout.infinite
  | .finite negative b => (if negative then "-" else "") ++ layout.magnitude b

end Layout

/-- Numbers in a message: whole numbers have no point, and positional notation ends below
`10 ^ 16`. -/
def message : Layout where
  lowest := -4
  highest := 15
  keepsPoint := false
  notANumber := "nan"
  infinite := "inf"

end ServingTuner.Decimal
