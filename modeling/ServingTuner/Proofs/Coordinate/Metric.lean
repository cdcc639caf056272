import Mathlib
import ServingTuner.Coordinate.Ball
import ServingTuner.Proofs.Coordinate.Distance

/-!
# The distance is a metric

The distance of two coordinates is the greatest of the differences of their slots, and it is so over
the integers: the differences and the running maximum are computed on words, but nothing is cut off
(`isGreatest_distance`).  In particular it makes no difference that a word of 32 bits is enough for
`gap`, where a program may take the detour over signed words of 64 bits (`wideGap_eq_gap`).

The laws of a metric come slot by slot from those of the absolute value, by way of
`toNat_distance_le_iff`.  They are put together in `distance_metric`, with what they say of balls: of
two coordinates either one is in the ball around the other one or none is, and `k` steps, each into
the ball around the coordinate before, lead no further than `k` times the radius.
-/

namespace ServingTuner

namespace Coordinate

variable {a b c : Coordinate}

/-! ### The greatest difference -/

/-- The differences of the slots of two coordinates, over the integers. -/
def slotGaps (a b : Coordinate) : List ℤ :=
  List.zipWith (fun x y : UInt32 => |(x.toNat : ℤ) - y.toNat|) a.slots b.slots

/-- The differences of the slots, read off the words. -/
lemma map_gap (a b : Coordinate) :
    (List.zipWith gap a.slots b.slots).map (fun word => (word.toNat : ℤ)) = a.slotGaps b := by
  simp only [List.map_zipWith, toNat_gap, slotGaps]

/-- A running maximum is its start or one of the elements. -/
lemma foldl_max_mem (xs : List UInt32) (start : UInt32) : xs.foldl max start ∈ start :: xs := by
  induction xs generalizing start with
  | nil => exact List.mem_singleton_self start
  | cons x xs ih =>
    rw [List.foldl_cons]
    rcases List.mem_cons.mp (ih (max start x)) with hmax | hlater
    · rw [hmax, show max start x = if start ≤ x then x else start from rfl]
      split_ifs
      · exact List.mem_cons_of_mem _ List.mem_cons_self
      · exact List.mem_cons_self
    · exact List.mem_cons_of_mem _ (List.mem_cons_of_mem _ hlater)

/-- If there are slots, the distance is the greatest one of their differences. -/
lemma isGreatest_distance (hsize : a.size = b.size) (hslots : a.slots ≠ []) :
    IsGreatest {gap | gap ∈ a.slotGaps b} ((a.distance b).toNat : ℤ) := by
  obtain ⟨x, xs, hx⟩ := List.exists_cons_of_ne_nil hslots
  obtain ⟨y, ys, hy⟩ := List.exists_cons_of_length_pos
    (show 0 < b.slots.length by rw [← size, ← hsize, size, hx]; simp)
  have hbound : ∀ word ∈ List.zipWith gap a.slots b.slots, word.toNat ≤ (a.distance b).toNat :=
    (toNat_foldl_max_le_iff.mp (le_refl (a.distance b).toNat)).2
  constructor
  · rw [Set.mem_ofPred_eq, ← map_gap]
    refine List.mem_map_of_mem ?_
    rcases List.mem_cons.mp (foldl_max_mem (List.zipWith gap a.slots b.slots) 0) with hzero | hmem
    · -- Where the maximum is its start, no difference is greater than that, and so the first is it.
      have hfirst : gap x y ∈ List.zipWith gap a.slots b.slots := by
        rw [hx, hy, List.zipWith_cons_cons]
        exact List.mem_cons_self
      have hle := hbound _ hfirst
      rw [distance, hzero, UInt32.toNat_zero, Nat.le_zero, ← UInt32.toNat_zero,
        UInt32.toNat_inj] at hle
      rw [distance, hzero, ← hle]
      exact hfirst
    · exact hmem
  · intro difference hdifference
    rw [Set.mem_ofPred_eq, ← map_gap] at hdifference
    obtain ⟨word, hword, rfl⟩ := List.mem_map.mp hdifference
    exact_mod_cast hbound word hword

/-! ### Differences on wider words -/

/-- The difference of two slots on signed words of 64 bits, made absolute and narrowed to 32 bits. -/
def wideGap (x y : UInt32) : UInt32 :=
  (x.toUInt64.toInt64 - y.toUInt64.toInt64).abs.toUInt64.toUInt32

/-- Wider words give the same difference. -/
lemma wideGap_eq_gap (x y : UInt32) : wideGap x y = gap x y := by
  have hx := x.toNat_lt
  have hy := y.toNat_lt
  have hgap := toNat_gap x y
  have hwide : (x.toUInt64.toInt64 - y.toUInt64.toInt64).toBitVec.toNat =
      (2 ^ 64 - y.toNat + x.toNat) % 2 ^ 64 := by
    rw [← UInt64.toInt64_sub, UInt64.toBitVec_toInt64, UInt64.toBitVec_sub, BitVec.toNat_sub]
    simp
  rw [← UInt32.toNat_inj, wideGap, UInt64.toNat_toUInt32, ← UInt64.toNat_toBitVec,
    Int64.toBitVec_toUInt64, Int64.toBitVec_abs, BitVec.toNat_abs, BitVec.msb_eq_decide, hwide]
  rcases le_total x.toNat y.toNat with hle | hle
  · rw [abs_of_nonpos (by omega)] at hgap
    split_ifs with hsign
    · omega
    · rw [decide_eq_true_iff] at hsign
      omega
  · rw [abs_of_nonneg (by omega)] at hgap
    split_ifs with hsign
    · rw [decide_eq_true_iff] at hsign
      omega
    · omega

/-! ### Laws of a metric -/

/-- The distance is the same in both directions. -/
lemma distance_comm (a b : Coordinate) : a.distance b = b.distance a := by
  have hgap : ∀ x y : UInt32, gap x y = gap y x := by
    intro x y
    have hcomm := abs_sub_comm (x.toNat : ℤ) y.toNat
    rw [← toNat_gap, ← toNat_gap] at hcomm
    rw [← UInt32.toNat_inj]
    exact_mod_cast hcomm
  rw [distance, distance, List.zipWith_comm_of_comm hgap]

/-- A detour over a third coordinate is no shorter. -/
lemma distance_triangle (hab : a.size = b.size) (hbc : b.size = c.size) :
    (a.distance c).toNat ≤ (a.distance b).toNat + (b.distance c).toNat := by
  obtain ⟨hlength, hfirst⟩ := List.forall₂_iff_get.mp ((toNat_distance_le_iff hab).mp le_rfl)
  obtain ⟨hlength', hsecond⟩ := List.forall₂_iff_get.mp ((toNat_distance_le_iff hbc).mp le_rfl)
  refine (toNat_distance_le_iff (hab.trans hbc)).mpr (List.forall₂_iff_get.mpr ?_)
  refine ⟨hlength.trans hlength', fun i ha hc => ?_⟩
  have hb : i < b.slots.length := hlength ▸ ha
  calc |((a.slots.get ⟨i, ha⟩).toNat : ℤ) - (c.slots.get ⟨i, hc⟩).toNat|
      ≤ |((a.slots.get ⟨i, ha⟩).toNat : ℤ) - (b.slots.get ⟨i, hb⟩).toNat| +
          |((b.slots.get ⟨i, hb⟩).toNat : ℤ) - (c.slots.get ⟨i, hc⟩).toNat| := abs_sub_le _ _ _
    _ ≤ (a.distance b).toNat + (b.distance c).toNat :=
        add_le_add (hfirst i ha hb) (hsecond i hb hc)
    _ = (((a.distance b).toNat + (b.distance c).toNat : ℕ) : ℤ) := (Nat.cast_add _ _).symm

/-! ### Steps from ball to ball -/

/-- A ball contains the coordinates of its center's size within the radius. -/
lemma contains_mk_iff {radius : UInt32} :
    (⟨a, radius⟩ : Ball).contains b = true ↔
      b.size = a.size ∧ (a.distance b).toNat ≤ radius.toNat := by
  rw [Ball.contains, Bool.and_eq_true, beq_iff_eq, decide_eq_true_iff, UInt32.le_iff_toNat_le]

/-- Of two coordinates either one is in the ball around the other one or none is. -/
lemma contains_comm (a b : Coordinate) (radius : UInt32) :
    (⟨a, radius⟩ : Ball).contains b = (⟨b, radius⟩ : Ball).contains a := by
  rw [Bool.eq_iff_iff, contains_mk_iff, contains_mk_iff, distance_comm a b, eq_comm]

/-- Steps from ball to ball lead no further than the radius times their number. -/
lemma distance_le_of_steps {radius : UInt32} {path : ℕ → Coordinate} {k : ℕ}
    (hsteps : ∀ i < k, (⟨path i, radius⟩ : Ball).contains (path (i + 1)) = true) :
    (path k).size = (path 0).size ∧ ((path 0).distance (path k)).toNat ≤ k * radius.toNat := by
  induction k with
  | zero => simp [(distance_eq_zero_iff rfl).mpr rfl]
  | succ k ih =>
    obtain ⟨hsize, hdistance⟩ := ih fun i hi => hsteps i (by omega)
    obtain ⟨hstepSize, hstep⟩ := contains_mk_iff.mp (hsteps k (by omega))
    refine ⟨hstepSize.trans hsize, ?_⟩
    calc ((path 0).distance (path (k + 1))).toNat
        ≤ ((path 0).distance (path k)).toNat + ((path k).distance (path (k + 1))).toNat :=
          distance_triangle hsize.symm hstepSize.symm
      _ ≤ k * radius.toNat + radius.toNat := add_le_add hdistance hstep
      _ = (k + 1) * radius.toNat := (Nat.succ_mul _ _).symm

/-- Between coordinates of one size the distance is the greatest difference of a slot over the
integers, and nothing is lost if the differences are taken on signed words of 64 bits and narrowed.
Without slots it is 0.  It is a metric: it vanishes between equal coordinates only, it is the same in
both directions, and it obeys the triangle inequality.  Hence to be in the ball of some radius around
each other is symmetric, and who goes `k` times from a coordinate to one in the ball around it comes
no further than `k` times the radius. -/
theorem distance_metric (hab : a.size = b.size) (hbc : b.size = c.size) :
    (a.slots ≠ [] → IsGreatest {gap | gap ∈ a.slotGaps b} ((a.distance b).toNat : ℤ)) ∧
      (a.slots = [] → a.distance b = 0) ∧
      a.distance b = (List.zipWith wideGap a.slots b.slots).foldl max 0 ∧
      (a.distance b = 0 ↔ a = b) ∧
      a.distance b = b.distance a ∧
      (a.distance c).toNat ≤ (a.distance b).toNat + (b.distance c).toNat ∧
      (∀ radius : UInt32, (⟨a, radius⟩ : Ball).contains b = (⟨b, radius⟩ : Ball).contains a) ∧
      ∀ (radius : UInt32) (path : ℕ → Coordinate) (k : ℕ), path 0 = a →
        (∀ i < k, (⟨path i, radius⟩ : Ball).contains (path (i + 1)) = true) →
        (path k).size = a.size ∧ (a.distance (path k)).toNat ≤ k * radius.toNat := by
  refine ⟨isGreatest_distance hab, ?_, ?_, distance_eq_zero_iff hab, distance_comm a b,
    distance_triangle hab hbc, contains_comm a b, ?_⟩
  · intro hslots
    rw [distance, hslots]
    rfl
  · rw [distance, show wideGap = gap from funext₂ wideGap_eq_gap]
  · rintro radius path k rfl hsteps
    exact distance_le_of_steps hsteps

/-- From one end of the range of a slot to the other one it is the greatest number of 32 bits, in one
step or by way of the middle. -/
theorem distance_metric_of_extremes :
    (⟨[0, 7]⟩ : Coordinate).size = (⟨[2147483648, 7]⟩ : Coordinate).size ∧
      (⟨[2147483648, 7]⟩ : Coordinate).size = (⟨[4294967295, 5]⟩ : Coordinate).size ∧
      (⟨[0, 7]⟩ : Coordinate).distance ⟨[4294967295, 5]⟩ = 4294967295 ∧
      ((⟨[0, 7]⟩ : Coordinate).distance ⟨[4294967295, 5]⟩).toNat ≤
        ((⟨[0, 7]⟩ : Coordinate).distance ⟨[2147483648, 7]⟩).toNat +
          ((⟨[2147483648, 7]⟩ : Coordinate).distance ⟨[4294967295, 5]⟩).toNat ∧
      (2147483648 : ℤ) ∈ (⟨[0, 7]⟩ : Coordinate).slotGaps ⟨[2147483648, 7]⟩ ∧
      ((⟨[0, 7]⟩ : Coordinate).distance ⟨[4294967295, 5]⟩).toNat ≤ 2 * (2147483648 : UInt32).toNat := by
  have hab : (⟨[0, 7]⟩ : Coordinate).size = (⟨[2147483648, 7]⟩ : Coordinate).size := rfl
  have hbc : (⟨[2147483648, 7]⟩ : Coordinate).size = (⟨[4294967295, 5]⟩ : Coordinate).size := rfl
  obtain ⟨hgreatest, -, -, -, -, htriangle, -, hsteps⟩ := distance_metric hab hbc
  let path : ℕ → Coordinate := fun i =>
    [⟨[0, 7]⟩, ⟨[2147483648, 7]⟩, ⟨[4294967295, 5]⟩].getD i ⟨[]⟩
  have hpath : ∀ i < 2, (⟨path i, 2147483648⟩ : Ball).contains (path (i + 1)) = true := by decide
  exact ⟨hab, hbc, by decide, htriangle, (hgreatest (by decide)).1,
    (hsteps 2147483648 path 2 rfl hpath).2⟩

end Coordinate

end ServingTuner
