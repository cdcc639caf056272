import Mathlib
import ServingTuner.Proofs.Ranking.Gain

/-!
# Numbers in order

The comparisons of measured values are tests of their own, and a ranking can rely on them only where
they are those of a total order (`Quantity.TotallyOrdered`).  Exact numbers always are so ordered
(`Quantity.totallyOrdered_rat`), and doubles are as long as none of them is NaN
(`Quantity.totallyOrdered_double`): each has a place by its sign, its exponent and its mantissa, and
the two zeros share one.
-/

namespace ServingTuner

namespace Quantity

variable {α : Type} [Quantity α] {xs ys : List α}

/-- Among these numbers the comparisons are those of a total order.  Doubles are so ordered if none
of them is NaN. -/
structure TotallyOrdered (xs : List α) : Prop where
  equal_iff : ∀ x ∈ xs, ∀ y ∈ xs, equal x y = true ↔ less x y = false ∧ less y x = false
  asymm : ∀ x ∈ xs, ∀ y ∈ xs, less x y = true → less y x = false
  trans : ∀ x ∈ xs, ∀ y ∈ xs, ∀ z ∈ xs, less y x = false → less z y = false → less z x = false

/-- Numbers in order are in order without some of them. -/
lemma TotallyOrdered.mono (h : TotallyOrdered xs) (hsub : ys ⊆ xs) : TotallyOrdered ys :=
  ⟨fun x hx y hy => h.equal_iff x (hsub hx) y (hsub hy),
    fun x hx y hy => h.asymm x (hsub hx) y (hsub hy),
    fun x hx y hy z hz => h.trans x (hsub hx) y (hsub hy) z (hsub hz)⟩

/-- Numbers that are compared by their places in a total order are in order. -/
lemma totallyOrdered_of_places {β : Type} [LinearOrder β] (place : α → β)
    (hless : ∀ x ∈ xs, ∀ y ∈ xs, less x y = true ↔ place x < place y)
    (hequal : ∀ x ∈ xs, ∀ y ∈ xs, equal x y = true ↔ place x = place y) : TotallyOrdered xs := by
  have hnot : ∀ x ∈ xs, ∀ y ∈ xs, less x y = false ↔ place y ≤ place x := by
    intro x hx y hy
    rw [← Bool.not_eq_true, hless x hx y hy, not_lt]
  constructor
  · intro x hx y hy
    rw [hequal x hx y hy, hnot x hx y hy, hnot y hy x hx, and_comm]
    exact le_antisymm_iff
  · intro x hx y hy h
    rw [hnot y hy x hx]
    exact ((hless x hx y hy).mp h).le
  · intro x hx y hy z hz hxy hyz
    rw [hnot y hy x hx] at hxy
    rw [hnot z hz y hy] at hyz
    rw [hnot z hz x hx]
    exact hxy.trans hyz

/-- Exact numbers are in order. -/
lemma totallyOrdered_rat (xs : List ℚ) : TotallyOrdered xs := by
  apply totallyOrdered_of_places id
  · intro x _ y _
    simp [less_rat]
  · intro x _ y _
    simp [equal_rat]

/-! ### Doubles -/

open Float.Model Float.Model.UnpackedFloat

/-- The place of a double among the others: by its sign, and then by exponent and mantissa, which count
downwards below zero. -/
def placeOf : UnpackedFloat → ℤ ×ₗ ℤ ×ₗ ℤ
  | .infinity .negative => toLex (-2, toLex (0, 0))
  | .finite .negative mantissa exponent _ => toLex (-1, toLex (-exponent, -(mantissa : ℤ)))
  | .zero _ => toLex (0, toLex (0, 0))
  | .finite .positive mantissa exponent _ => toLex (1, toLex (exponent, (mantissa : ℤ)))
  | .infinity .positive => toLex (2, toLex (0, 0))
  | .notANumber => toLex (3, toLex (0, 0))

/-- Each sign is the same as itself. -/
@[simp] lemma compare_sign_self (s : Sign) : compare s s = .eq := by
  cases s <;> rfl

/-- Negative is the smaller one of the two signs. -/
@[simp] lemma compare_sign_lt : compare Sign.negative Sign.positive = .lt := rfl

/-- Positive is the greater one of the two signs. -/
@[simp] lemma compare_sign_gt : compare Sign.positive Sign.negative = .gt := rfl

/-- A double is below another one if its place is. -/
lemma lt_iff_placeOf {x y : UnpackedFloat} (hx : x.isNaN = false) (hy : y.isNaN = false) :
    x.lt y = true ↔ placeOf x < placeOf y := by
  unfold UnpackedFloat.lt
  rw [beq_iff_eq]
  rcases x with (_ | _) | _ | _ | ⟨_ | _, m, e, hm⟩ <;>
    rcases y with (_ | _) | _ | _ | ⟨_ | _, m', e', hm'⟩ <;>
    simp [UnpackedFloat.compare, UnpackedFloat.isNaN, placeOf, Prod.Lex.toLex_lt_toLex,
      Ordering.then_eq_lt, Ordering.then_eq_gt, compare_lt_iff_lt, compare_gt_iff_gt] at hx hy ⊢

/-- A double equals another one if it has the same place. -/
lemma beq_iff_placeOf {x y : UnpackedFloat} (hx : x.isNaN = false) (hy : y.isNaN = false) :
    x.beq y = true ↔ placeOf x = placeOf y := by
  unfold UnpackedFloat.beq
  rw [beq_iff_eq]
  rcases x with (_ | _) | _ | _ | ⟨_ | _, m, e, hm⟩ <;>
    rcases y with (_ | _) | _ | _ | ⟨_ | _, m', e', hm'⟩ <;>
    simp [UnpackedFloat.compare, UnpackedFloat.isNaN, placeOf, Ordering.swap_then,
      Ordering.then_eq_eq] at hx hy ⊢

/-- A double is at most another one if its place is. -/
lemma le_iff_placeOf {x y : UnpackedFloat} (hx : x.isNaN = false) (hy : y.isNaN = false) :
    x.le y = true ↔ placeOf x ≤ placeOf y := by
  have heither : x.le y = true ↔ x.lt y = true ∨ x.beq y = true := by
    unfold UnpackedFloat.le UnpackedFloat.lt UnpackedFloat.beq
    rcases x.compare y with _ | _ | _ | _ <;> decide
  rw [heither, lt_iff_placeOf hx hy, beq_iff_placeOf hx hy, le_iff_lt_or_eq]

/-- A double is less than another one if its place is. -/
lemma less_double_iff {x y : Float} (hx : x.isNaN = false) (hy : y.isNaN = false) :
    less x y = true ↔ placeOf x.toModel.unpack < placeOf y.toModel.unpack := by
  rw [← lt_iff_placeOf hx hy]
  show decide (decide (x.toModel.lt y.toModel = true) = true) = true ↔ _
  rw [decide_eq_true_iff, decide_eq_true_iff]
  rfl

/-- NaN is neither below nor above anything. -/
lemma isNaN_eq_false_of_less {x y : Float} (h : less x y = true) :
    x.isNaN = false ∧ y.isNaN = false := by
  have hunpacked : ∀ x y : UnpackedFloat, x.lt y = true → x.isNaN = false ∧ y.isNaN = false := by
    intro x y hlt
    unfold UnpackedFloat.lt at hlt
    rw [beq_iff_eq] at hlt
    cases x <;> cases y <;> first | exact ⟨rfl, rfl⟩ | cases hlt
  apply hunpacked
  change decide (decide (x.toModel.lt y.toModel = true) = true) = true at h
  rw [decide_eq_true_iff, decide_eq_true_iff] at h
  exact h

/-- A double is at most another one if its place is. -/
lemma double_le_iff {x y : Float} (hx : x.isNaN = false) (hy : y.isNaN = false) :
    x ≤ y ↔ placeOf x.toModel.unpack ≤ placeOf y.toModel.unpack := by
  rw [← le_iff_placeOf hx hy]
  show decide (x.toModel.le y.toModel = true) = true ↔ _
  rw [decide_eq_true_iff]
  rfl

/-- A double that is not below another one is at least as great. -/
lemma double_le_of_less_eq_false {x y : Float} (hx : x.isNaN = false) (hy : y.isNaN = false)
    (h : less y x = false) : x ≤ y := by
  rwa [← Bool.not_eq_true, less_double_iff hy hx, not_lt, ← double_le_iff hx hy] at h

/-- A double is not below another one if it is at least as great, or if one of them is NaN. -/
lemma double_not_lt_iff {x y : Float} :
    ¬ y < x ↔ x ≤ y ∨ x.isNaN = true ∨ y.isNaN = true := by
  have hless : y < x ↔ less y x = true := decide_eq_true_iff.symm
  rw [hless]
  cases hx : x.isNaN with
  | true =>
    refine iff_of_true (fun hlt => ?_) (Or.inr (Or.inl rfl))
    rw [(isNaN_eq_false_of_less hlt).2] at hx
    cases hx
  | false =>
    cases hy : y.isNaN with
    | true =>
      refine iff_of_true (fun hlt => ?_) (Or.inr (Or.inr rfl))
      rw [(isNaN_eq_false_of_less hlt).1] at hy
      cases hy
    | false => simp [less_double_iff hy hx, double_le_iff hx hy]

/-- Doubles are in order if none of them is NaN. -/
theorem totallyOrdered_double {xs : List Float} (h : ∀ x ∈ xs, x.isNaN = false) :
    TotallyOrdered xs := by
  apply totallyOrdered_of_places fun x => placeOf x.toModel.unpack
  · intro x hx y hy
    exact less_double_iff (h x hx) (h y hy)
  · intro x hx y hy
    rw [← beq_iff_placeOf (h x hx) (h y hy)]
    rfl

end Quantity

end ServingTuner
