/-!
# Version

The version of the library.
-/

namespace ServingTuner

/-- A version number. -/
structure Version where
  major : Nat
  minor : Nat
  patch : Nat

namespace Version

/-- The version of this library. -/
def current : Version := ⟨0, 1, 0⟩

/-- The parts of a version between points. -/
def text (v : Version) : String :=
  toString v.major ++ "." ++ toString v.minor ++ "." ++ toString v.patch

end Version

end ServingTuner
