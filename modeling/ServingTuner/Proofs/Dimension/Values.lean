import Mathlib
import ServingTuner.Dimension

/-!
# Values of dimensions

A value grows with its slot and lies between 1 and `2 ^ 62` whatever the slot.  The minimum of a
dimension is a floor of its values: a slot below counts as the minimum, and so a coordinate has the
values of the one that is raised to the floor (`DimensionSet.valuesAt_floored`).
-/

namespace ServingTuner

namespace Dimension

/-- The value of a slot is positive. -/
lemma one_le_valueAt (dimension : Dimension) (slot : UInt32) : 1 ≤ dimension.valueAt slot := by
  rw [valueAt]
  cases dimension.law with
  | linear => simp
  | exponential =>
    show (1 : ℤ) ≤ ((2 ^ _ : ℕ) : ℤ)
    exact_mod_cast Nat.one_le_two_pow

/-- No value is greater than that of the greatest exponent. -/
lemma valueAt_le (dimension : Dimension) (slot : UInt32) : dimension.valueAt slot ≤ 2 ^ 62 := by
  rw [valueAt]
  generalize max slot dimension.min = effective
  cases dimension.law with
  | linear =>
    have hlt := effective.toNat_lt
    show (effective.toNat : ℤ) + 1 ≤ _
    omega
  | exponential =>
    have hexponent : (Min.min effective maxExponent).toNat ≤ 62 := by
      rw [UInt32.toNat_min]
      exact min_le_right _ _
    have hpower := Nat.pow_le_pow_right (show 0 < 2 by omega) hexponent
    show ((2 ^ (Min.min effective maxExponent).toNat : ℕ) : ℤ) ≤ _
    exact_mod_cast hpower

/-- A greater slot has no lesser value. -/
lemma valueAt_mono (dimension : Dimension) {slot larger : UInt32} (h : slot ≤ larger) :
    dimension.valueAt slot ≤ dimension.valueAt larger := by
  have heffective : (max slot dimension.min).toNat ≤ (max larger dimension.min).toNat := by
    rw [UInt32.toNat_max, UInt32.toNat_max]
    exact max_le_max_right _ (UInt32.le_iff_toNat_le.mp h)
  rw [valueAt, valueAt]
  cases dimension.law with
  | linear =>
    show ((max slot dimension.min).toNat : ℤ) + 1 ≤ ((max larger dimension.min).toNat : ℤ) + 1
    omega
  | exponential =>
    have hexponent : (Min.min (max slot dimension.min) maxExponent).toNat ≤
        (Min.min (max larger dimension.min) maxExponent).toNat := by
      rw [UInt32.toNat_min, UInt32.toNat_min]
      exact min_le_min_right _ heffective
    show ((2 ^ _ : ℕ) : ℤ) ≤ ((2 ^ _ : ℕ) : ℤ)
    exact_mod_cast Nat.pow_le_pow_right (show 0 < 2 by omega) hexponent

/-- A slot that is raised to the minimum keeps its value. -/
lemma valueAt_max (dimension : Dimension) (slot : UInt32) :
    dimension.valueAt (max slot dimension.min) = dimension.valueAt slot := by
  have hmax : max (max slot dimension.min) dimension.min = max slot dimension.min := by
    rw [← UInt32.toNat_inj]
    simp only [UInt32.toNat_max]
    omega
  rw [valueAt, valueAt, hmax]

/-- No value is less than that of the minimum. -/
lemma valueAt_min_le (dimension : Dimension) (slot : UInt32) :
    dimension.valueAt dimension.min ≤ dimension.valueAt slot := by
  have hfloor : dimension.min ≤ max slot dimension.min := by
    rw [UInt32.le_iff_toNat_le, UInt32.toNat_max]
    exact le_max_right _ _
  rw [← dimension.valueAt_max slot]
  exact dimension.valueAt_mono hfloor

end Dimension

namespace DimensionSet

variable {set : DimensionSet} {c : Coordinate}

/-- The coordinate with all slots raised to the minima of their dimensions, where they lie below. -/
def floored (set : DimensionSet) (c : Coordinate) : Coordinate :=
  ⟨List.zipWith (fun slot value => max value slot.dimension.min) set.slots c.slots⟩

/-- To raise slots to the minima of their dimensions does not change what a unit reads off them. -/
lemma unitValues_floored (slots : List Slot) (values : List UInt32) (unit : ℕ) :
    unitValues
        (slots.zip (List.zipWith (fun slot value => max value slot.dimension.min) slots values))
        unit =
      unitValues (slots.zip values) unit := by
  rw [unitValues, unitValues]
  congr 1
  induction slots generalizing values with
  | nil => rfl
  | cons slot slots ih =>
    cases values with
    | nil => rfl
    | cons value values =>
      simp only [List.zipWith_cons_cons, List.zip_cons_cons, List.filterMap_cons, ih,
        slot.dimension.valueAt_max]

/-- A coordinate has the values of the one that is raised to the floor. -/
lemma valuesAt_floored (h : c.size = set.slots.length) :
    set.valuesAt (set.floored c) = set.valuesAt c := by
  have hsize : (set.floored c).size = set.slots.length := by
    rw [Coordinate.size, floored, List.length_zipWith, ← Coordinate.size, h, Nat.min_self]
  rw [valuesAt, valuesAt, if_pos hsize, if_pos h]
  congr 1
  exact List.map_congr_left fun unit _ => unitValues_floored set.slots c.slots unit

end DimensionSet

end ServingTuner
