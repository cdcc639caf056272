import ServingTuner.Json.Basic

/-!
# Equality of JSON values

Values are compared by structure, with two exceptions among numbers. Two integers are equal when
they are the same 64-bit word, so that an unsigned one beyond the signed range equals the negative
one it wraps to. An integer and a float are equal when they are equal as doubles, where the integer
counts as it was written. A boolean is never equal to a number.
-/

namespace ServingTuner.Json

/-- Whether two integers are the same 64-bit word. -/
def sameWord (a b : Int) : Bool := Int.bmod a UInt64.size == Int.bmod b UInt64.size

mutual

/-- Whether two values are equal. -/
def same : Json → Json → Bool
  | null, null => true
  | bool a, bool b => a == b
  | int a, int b => sameWord a b
  | int a, float y => Float.ofInt a == y
  | float x, int b => x == Float.ofInt b
  | float x, float y => x == y
  | str a, str b => a == b
  | arr xs, arr ys => sameElements xs ys
  | obj xs, obj ys => sameFields xs ys
  | _, _ => false

/-- Whether two lists of elements are equal position by position. -/
def sameElements : List Json → List Json → Bool
  | [], [] => true
  | x :: xs, y :: ys => same x y && sameElements xs ys
  | _, _ => false

/-- Whether two ordered tables have the same names with equal values. -/
def sameFields : List (String × Json) → List (String × Json) → Bool
  | [], [] => true
  | (k, x) :: xs, (l, y) :: ys => k == l && same x y && sameFields xs ys
  | _, _ => false

end

end ServingTuner.Json
