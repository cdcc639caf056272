import Mathlib
import ServingTuner.Coordinate.Basic

/-!
# Distance between coordinates

The distance is computed on 32-bit words.  The lemmas of this module read it over the integers: it
stays within a radius exactly when every slot does (`distance_le_iff`), and it vanishes between equal
coordinates only (`distance_eq_zero_iff`).
-/

namespace ServingTuner

namespace Coordinate

/-- The difference of two slots is their exact distance over the integers. -/
lemma toNat_gap (a b : UInt32) : ((gap a b).toNat : ℤ) = |(a.toNat : ℤ) - b.toNat| := by
  unfold gap
  by_cases h : a ≤ b
  · have hle : a.toNat ≤ b.toNat := UInt32.le_iff_toNat_le.mp h
    rw [if_pos h, UInt32.toNat_sub_of_le _ _ h, abs_of_nonpos (by omega)]
    omega
  · have hle : b.toNat ≤ a.toNat := by
      rw [UInt32.le_iff_toNat_le] at h
      omega
    rw [if_neg h, UInt32.toNat_sub_of_le _ _ (UInt32.le_iff_toNat_le.mpr hle),
      abs_of_nonneg (by omega)]
    omega

/-- A running maximum stays within a limit when its start and all elements do. -/
lemma toNat_foldl_max_le_iff {xs : List UInt32} {start : UInt32} {limit : ℕ} :
    (xs.foldl max start).toNat ≤ limit ↔ start.toNat ≤ limit ∧ ∀ x ∈ xs, x.toNat ≤ limit := by
  induction xs generalizing start with
  | nil => simp
  | cons x xs ih =>
    rw [List.foldl_cons, ih, List.forall_mem_cons, ← and_assoc, UInt32.toNat_max]
    exact and_congr_left fun _ => max_le_iff

/-- The distance stays within a limit when the difference of every slot does. -/
lemma toNat_distance_le_iff {a b : Coordinate} (hsize : a.size = b.size) {limit : ℕ} :
    (a.distance b).toNat ≤ limit ↔
      List.Forall₂ (fun x y : UInt32 => |(x.toNat : ℤ) - y.toNat| ≤ limit) a.slots b.slots := by
  have hgap : ∀ x y : UInt32, (gap x y).toNat ≤ limit ↔ |(x.toNat : ℤ) - y.toNat| ≤ limit := by
    intro x y
    rw [← toNat_gap]
    omega
  rw [distance, toNat_foldl_max_le_iff, List.forall₂_iff_zip, ← List.map_uncurry_zip_eq_zipWith,
    List.forall_mem_map]
  simp only [UInt32.toNat_zero, zero_le, true_and, Prod.forall, Function.uncurry_apply_pair, hgap]
  exact ⟨fun h => ⟨hsize, h⟩, fun h => h.2⟩

/-- The distance stays within a radius when the difference of every slot does. -/
lemma distance_le_iff {a b : Coordinate} (hsize : a.size = b.size) (radius : UInt32) :
    a.distance b ≤ radius ↔
      List.Forall₂ (fun x y : UInt32 => |(x.toNat : ℤ) - y.toNat| ≤ radius.toNat)
        a.slots b.slots := by
  rw [UInt32.le_iff_toNat_le, toNat_distance_le_iff hsize]

/-- Only equal coordinates have no distance. -/
lemma distance_eq_zero_iff {a b : Coordinate} (hsize : a.size = b.size) :
    a.distance b = 0 ↔ a = b := by
  have hzero : a.distance b = 0 ↔ a.distance b ≤ 0 := by
    rw [UInt32.le_iff_toNat_le, ← UInt32.toNat_inj]
    simp
  have hslot : ∀ x y : UInt32, |(x.toNat : ℤ) - y.toNat| ≤ (0 : UInt32).toNat ↔ x = y := by
    intro x y
    rw [← UInt32.toNat_inj]
    simp [sub_eq_zero]
  rw [hzero, distance_le_iff hsize]
  simp only [hslot, List.forall₂_eq_eq_eq]
  cases a
  cases b
  simp

end Coordinate

end ServingTuner
