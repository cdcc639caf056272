import Mathlib
import ServingTuner.Proofs.Ranking.OneMetric

/-!
# Better in the sense of a metric

Two records of one metric are compared, subtracted and set against each other as a gain, and all three
read the metric's polarity.  They come down to one number, by how much the first record is ahead
(`Record.lead`): comparing looks at its sign, the difference is this number itself, and the gain is
this number in percent of the other record.

So the first two always agree, and the gain agrees with them over a positive record.  A record below
zero turns the sign of the gain round, because the gain is taken relative to the value and not to its
magnitude (`cmp_gainOver`).
-/

namespace ServingTuner

open Quantity

namespace Record

variable {a b : Record ℚ}

/-- A record is better than another one of its metric if its value is greater, or if it is less where
less is better. -/
def IsBetter (a b : Record ℚ) : Prop :=
  match a.metric.polarity with
  | .higherIsBetter => b.value < a.value
  | .lowerIsBetter => a.value < b.value

/-! ### The lead of a record -/

/-- The better record is ahead. -/
lemma lead_pos_iff : 0 < a.lead b ↔ a.IsBetter b := by
  unfold lead IsBetter
  cases a.metric.polarity with
  | higherIsBetter => exact sub_pos
  | lowerIsBetter => exact sub_pos

/-- Neither of two equal records is ahead. -/
lemma lead_eq_zero_iff : a.lead b = 0 ↔ a.value = b.value := by
  unfold lead
  cases a.metric.polarity with
  | higherIsBetter => exact sub_eq_zero
  | lowerIsBetter => exact sub_eq_zero.trans eq_comm

/-- The difference of two records is the lead of the first one. -/
lemma subtract_eq (hmetric : a.metric = b.metric) :
    a.subtract b = .ok { a with value := a.lead b } := by
  rw [subtract, if_pos hmetric]
  unfold lead
  cases a.metric.polarity <;> rfl

/-- To compare two records is to look at the sign of the lead. -/
lemma compare_eq_cmp_lead (hmetric : a.metric = b.metric) : a.compare b = cmp (a.lead b) 0 := by
  rw [compare_eq_merit hmetric, lead_eq_merit_sub hmetric, cmp_sub_zero, cmp_eq_compare]

/-- The gain over a positive record has the sign of the comparison, and over a record below zero the
opposite one. -/
lemma cmp_gainOver (hmetric : a.metric = b.metric) (hb : b.value ≠ 0) :
    cmp (a.gainOver b) 0 = if 0 < b.value then a.compare b else (a.compare b).swap := by
  have hgain : a.gainOver b = (100 / b.value) * a.lead b := by
    rw [gainOver_eq hmetric hb]
    ring
  rw [compare_eq_cmp_lead hmetric, hgain]
  split_ifs with hpos
  · have hfactor : 0 < 100 / b.value := div_pos (by norm_num) hpos
    calc cmp (100 / b.value * a.lead b) 0
        = cmp (100 / b.value * a.lead b) (100 / b.value * 0) := by rw [mul_zero]
      _ = cmp (a.lead b) 0 := cmp_mul_pos_left hfactor _ _
  · have hfactor : 100 / b.value < 0 :=
      div_neg_of_pos_of_neg (by norm_num) (lt_of_le_of_ne (not_lt.mp hpos) hb)
    calc cmp (100 / b.value * a.lead b) 0
        = cmp (100 / b.value * a.lead b) (100 / b.value * 0) := by rw [mul_zero]
      _ = cmp 0 (a.lead b) := cmp_mul_neg_left hfactor _ _
      _ = (cmp (a.lead b) 0).swap := (cmp_swap _ _).symm

/-- A comparison is its own opposite between equal records only. -/
lemma swap_compare_eq_iff (hmetric : a.metric = b.metric) :
    (a.compare b).swap = a.compare b ↔ a.value = b.value := by
  have hopposite : ∀ order : Ordering, order.swap = order ↔ order = .eq := by decide
  rw [hopposite, compare_eq_cmp_lead hmetric, cmp_eq_eq_iff, lead_eq_zero_iff]

/-- Take two records of one metric.  Their comparison and the value of their difference have the same
sign, which is positive exactly if the first record is the better one.  Over a record that is not zero
the gain has this sign exactly if that record is positive, or the two are equal; over a record below
zero it has the opposite sign. -/
theorem compare_subtract_gainOver (hmetric : a.metric = b.metric) :
    ∃ difference, a.subtract b = .ok difference ∧
      cmp difference.value 0 = a.compare b ∧
      (a.compare b = .gt ↔ a.IsBetter b) ∧
      (0 < difference.value ↔ a.IsBetter b) ∧
      (b.value = 0 → a.gainOver b = 0) ∧
      (b.value ≠ 0 →
        cmp (a.gainOver b) 0 = (if 0 < b.value then a.compare b else (a.compare b).swap) ∧
        (cmp (a.gainOver b) 0 = a.compare b ↔ 0 < b.value ∨ a.value = b.value) ∧
        ((0 < a.gainOver b ↔ a.IsBetter b) ↔ 0 < b.value ∨ a.value = b.value)) := by
  have hbetter : a.compare b = .gt ↔ a.IsBetter b := by
    rw [compare_eq_cmp_lead hmetric, cmp_eq_gt_iff, lead_pos_iff]
  refine ⟨_, subtract_eq hmetric, (compare_eq_cmp_lead hmetric).symm, hbetter, lead_pos_iff, ?_, ?_⟩
  · intro hzero
    rw [gainOver, equal_rat, zero_rat, if_pos (decide_eq_true hzero)]
  · intro hb
    have hsign := cmp_gainOver hmetric hb
    refine ⟨hsign, ?_, ?_⟩
    · rw [hsign]
      split_ifs with hpos
      · exact iff_of_true rfl (Or.inl hpos)
      · rw [swap_compare_eq_iff hmetric, or_iff_right hpos]
    · rw [← cmp_eq_gt_iff, hsign, ← hbetter]
      split_ifs with hpos
      · exact iff_of_true Iff.rfl (Or.inl hpos)
      · rw [or_iff_right hpos, ← swap_compare_eq_iff hmetric]
        cases a.compare b <;> decide

/-- A loss that is halved is an improvement, but the gain over the greater loss is negative. -/
theorem gainOver_neg_of_isBetter :
    (⟨.throughput, -5, 0⟩ : Record ℚ).IsBetter ⟨.throughput, -10, 0⟩ ∧
      (⟨.throughput, -5, 0⟩ : Record ℚ).compare ⟨.throughput, -10, 0⟩ = .gt ∧
      (⟨.throughput, -5, 0⟩ : Record ℚ).gainOver ⟨.throughput, -10, 0⟩ < 0 := by
  refine ⟨?_, by decide +kernel, by decide +kernel⟩
  show (-10 : ℚ) < -5
  norm_num

/-- A latency that is cut by a fifth is an improvement in every respect. -/
theorem compare_subtract_gainOver_of_latency :
    (⟨.latencyP99, 80, 0⟩ : Record ℚ).metric = (⟨.latencyP99, 100, 0⟩ : Record ℚ).metric ∧
      (⟨.latencyP99, 100, 0⟩ : Record ℚ).value ≠ 0 ∧
      (⟨.latencyP99, 80, 0⟩ : Record ℚ).IsBetter ⟨.latencyP99, 100, 0⟩ ∧
      (⟨.latencyP99, 80, 0⟩ : Record ℚ).compare ⟨.latencyP99, 100, 0⟩ = .gt ∧
      0 < (⟨.latencyP99, 80, 0⟩ : Record ℚ).gainOver ⟨.latencyP99, 100, 0⟩ := by
  have hvalue : (⟨.latencyP99, 100, 0⟩ : Record ℚ).value ≠ 0 := by norm_num
  have hbetter : (⟨.latencyP99, 80, 0⟩ : Record ℚ).IsBetter ⟨.latencyP99, 100, 0⟩ := by
    show (80 : ℚ) < 100
    norm_num
  obtain ⟨difference, -, -, hcompare, -, -, hgain⟩ :=
    compare_subtract_gainOver (a := ⟨.latencyP99, 80, 0⟩) (b := ⟨.latencyP99, 100, 0⟩) rfl
  refine ⟨rfl, hvalue, hbetter, hcompare.mpr hbetter, ?_⟩
  exact ((hgain hvalue).2.2.mpr (Or.inl (by norm_num))).mpr hbetter

end Record

end ServingTuner
