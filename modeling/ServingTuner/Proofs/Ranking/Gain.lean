import Mathlib
import ServingTuner.Constraint.Basic

/-!
# Gains in both directions

The gain of a run over another one and the gain the other way round are taken relative to different
values.  Both are still put together from the records in the same way: what holds of the two gains of
every pair of records, and is kept by sums and by positive factors, holds of the two gains of the
runs (`gain_of_compared`).

So comparing runs is antisymmetric as long as no record stands against the others
(`rank_swap_or_tradeOff`).  Where one run is better in one metric and the other run in another one,
each can gain over the other.
-/

namespace ServingTuner

/-! ### Exact quantities -/

namespace Quantity

lemma zero_rat : (zero : ℚ) = 0 := rfl

lemma less_rat (a b : ℚ) : less a b = decide (a < b) := rfl

lemma atMost_rat (a b : ℚ) : atMost a b = decide (a ≤ b) := rfl

lemma equal_rat (a b : ℚ) : equal a b = decide (a = b) := rfl

lemma total_rat (xs : List ℚ) : total xs = xs.sum := List.sum_eq_foldl.symm

end Quantity

open Quantity

/-! ### Pairs of gains -/

/-- What holds of two gains in opposite directions and is kept when gains are added up and weighted. -/
structure Additive (R : ℚ → ℚ → Prop) : Prop where
  zero : R 0 0
  add : ∀ {x y x' y' : ℚ}, R x y → R x' y' → R (x + x') (y + y')
  scale : ∀ {k x y : ℚ}, 0 < k → R x y → R (k * x) (k * y)

/-- What holds of all pairs of gains holds of their sums. -/
lemma Additive.sum {R : ℚ → ℚ → Prop} (hR : Additive R) {ι : Type} {xs : List ι} {f g : ι → ℚ}
    (h : ∀ x ∈ xs, R (f x) (g x)) : R (xs.map f).sum (xs.map g).sum := by
  induction xs with
  | nil => exact hR.zero
  | cons x xs ih =>
    obtain ⟨hx, hxs⟩ := List.forall_mem_cons.mp h
    rw [List.map_cons, List.map_cons, List.sum_cons, List.sum_cons]
    exact hR.add hx (ih hxs)

/-- The first gain is no loss and the second one no gain, and if one of them is nothing, then so is
the other. -/
structure Favours (own other : ℚ) : Prop where
  own_nonneg : 0 ≤ own
  other_nonpos : other ≤ 0
  zero_iff : own = 0 ↔ other = 0

/-- Favours add up. -/
lemma additive_favours : Additive Favours := by
  refine ⟨⟨le_rfl, le_rfl, Iff.rfl⟩, ?_, ?_⟩
  · intro x y x' y' h h'
    have hown := add_eq_zero_iff_of_nonneg h.own_nonneg h'.own_nonneg
    have hother := add_eq_zero_iff_of_nonneg (neg_nonneg.mpr h.other_nonpos)
      (neg_nonneg.mpr h'.other_nonpos)
    rw [← neg_add, neg_eq_zero, neg_eq_zero, neg_eq_zero] at hother
    refine ⟨add_nonneg h.own_nonneg h'.own_nonneg, add_nonpos h.other_nonpos h'.other_nonpos, ?_⟩
    rw [hown, hother, h.zero_iff, h'.zero_iff]
  · intro k x y hk h
    refine ⟨mul_nonneg hk.le h.own_nonneg, mul_nonpos_of_nonneg_of_nonpos hk.le h.other_nonpos, ?_⟩
    rw [mul_eq_zero_iff_left hk.ne', mul_eq_zero_iff_left hk.ne', h.zero_iff]

/-- Losing as much as is gained, or more, adds up. -/
lemma additive_add_nonpos : Additive fun own other => own + other ≤ 0 := by
  refine ⟨by norm_num, ?_, ?_⟩
  · intro x y x' y' h h'
    linarith
  · intro k x y hk h
    rw [← mul_add]
    exact mul_nonpos_of_nonneg_of_nonpos hk.le h

/-! ### Two records of one metric -/

namespace Record

variable {a b : Record ℚ}

/-- By how much a record is ahead of another one of its metric. -/
def lead (a b : Record ℚ) : ℚ :=
  match a.metric.polarity with
  | .higherIsBetter => a.value - b.value
  | .lowerIsBetter => b.value - a.value

/-- A record is behind by as much as the other one is ahead. -/
lemma lead_swap (hmetric : a.metric = b.metric) : b.lead a = -a.lead b := by
  rw [lead, lead, hmetric]
  cases b.metric.polarity <;> ring

/-- The record that is ahead is the improvement. -/
lemma improvesOn_iff : a.improvesOn b = true ↔ 0 < a.lead b := by
  have hle : ∀ {x y : ℚ}, x < y → ¬y < x := fun h => h.le.not_gt
  rw [improvesOn, compare, equal_rat, less_rat, lead]
  rcases lt_trichotomy a.value b.value with h | h | h
  · cases a.metric.polarity <;> simp [h, h.ne, hle h]
  · cases a.metric.polarity <;> simp [h]
  · cases a.metric.polarity <;> simp [h, h.ne', hle h]

/-- The gain over a record that is not zero is the lead in percent of that record. -/
lemma gainOver_eq (hmetric : a.metric = b.metric) (hb : b.value ≠ 0) :
    a.gainOver b = a.lead b / b.value * 100 := by
  rw [gainOver, equal_rat, zero_rat, if_neg (by simpa using hb), lead, hmetric]
  cases b.metric.polarity with
  | higherIsBetter => rfl
  | lowerIsBetter => exact congrArg (· / b.value * 100) (neg_sub a.value b.value)

/-- A record over which another one is no improvement is favoured. -/
lemma favours_gainOver (hmetric : a.metric = b.metric) (ha : 0 < a.value) (hb : 0 < b.value)
    (h : b.improvesOn a = false) : Favours (a.gainOver b) (b.gainOver a) := by
  have hlead : 0 ≤ a.lead b := by
    rw [← Bool.not_eq_true, improvesOn_iff, lead_swap hmetric] at h
    linarith
  rw [gainOver_eq hmetric hb.ne', gainOver_eq hmetric.symm ha.ne', lead_swap hmetric]
  refine ⟨by positivity, ?_, ?_⟩
  · rw [neg_div, neg_mul]
    exact neg_nonpos.mpr (by positivity)
  · simp [ha.ne', hb.ne']

/-- Unless higher values are better and the records differ, the gains in both directions are
together no more than nothing. -/
lemma gainOver_add_nonpos (hmetric : a.metric = b.metric) (ha : 0 < a.value) (hb : 0 < b.value)
    (h : ¬(a.metric.polarity = .higherIsBetter ∧ a.value ≠ b.value)) :
    a.gainOver b + b.gainOver a ≤ 0 := by
  have hsum : a.gainOver b + b.gainOver a =
      a.lead b * (a.value - b.value) / (a.value * b.value) * 100 := by
    rw [gainOver_eq hmetric hb.ne', gainOver_eq hmetric.symm ha.ne', lead_swap hmetric]
    field_simp
    ring
  have hlead : a.lead b * (a.value - b.value) ≤ 0 := by
    rw [lead]
    cases hpolarity : a.metric.polarity with
    | higherIsBetter =>
      have hequal : a.value = b.value := not_not.mp fun hne => h ⟨hpolarity, hne⟩
      simp [hequal]
    | lowerIsBetter => nlinarith [sq_nonneg (a.value - b.value)]
  rw [hsum]
  have hpos : 0 < a.value * b.value := mul_pos ha hb
  exact mul_nonpos_of_nonpos_of_nonneg (div_nonpos_of_nonpos_of_nonneg hlead hpos.le) (by norm_num)

end Record

/-! ### Two measurements of one model -/

/-- What makes two measurements of a model comparable: the same objectives with positive weights, the
same metrics, and positive values. -/
structure RunEntry.Comparable (x y : RunEntry ℚ) : Prop where
  objectives : x.objectives = y.objectives
  weights : ∀ objective ∈ x.objectives, 0 < objective.2
  metrics : ∀ metric, (∃ r ∈ x.measurement.records, r.metric = metric) ↔
    ∃ r ∈ y.measurement.records, r.metric = metric
  own_pos : ∀ r ∈ x.measurement.records, 0 < r.value
  other_pos : ∀ r ∈ y.measurement.records, 0 < r.value

/-- The gain over another measurement is the weighted mean of the gains over what is shared. -/
lemma ModelMeasurement.gain_eq_shared (mine theirs : ModelMeasurement ℚ)
    (objectives : Objectives ℚ) :
    mine.gain theirs objectives =
      if ((shared mine theirs objectives).map (·.1)).sum ≤ 0 then 0
      else ((shared mine theirs objectives).map fun t =>
        t.1 / ((shared mine theirs objectives).map (·.1)).sum * t.2.1.gainOver t.2.2).sum := by
  simp only [gain, total_rat, atMost_rat, zero_rat, decide_eq_true_eq]

namespace RunEntry

variable {x y : RunEntry ℚ}

/-- The records of two measurements that the objectives compare. -/
def compared (x y : RunEntry ℚ) : List (Record ℚ × Record ℚ) :=
  (ModelMeasurement.shared x.measurement y.measurement x.objectives).map (·.2)

/-- Comparing is symmetric. -/
lemma Comparable.symm (h : x.Comparable y) : y.Comparable x :=
  ⟨h.objectives.symm, h.objectives ▸ h.weights, fun metric => (h.metrics metric).symm, h.other_pos,
    h.own_pos⟩

/-- A weight with two records, of which either may be the first. -/
abbrev flip (term : ℚ × Record ℚ × Record ℚ) : ℚ × Record ℚ × Record ℚ := (term.1, term.2.swap)

/-- The other way round the same records are shared. -/
lemma shared_swap (mine theirs : ModelMeasurement ℚ) (objectives : Objectives ℚ) :
    ModelMeasurement.shared theirs mine objectives =
      (ModelMeasurement.shared mine theirs objectives).map flip := by
  rw [ModelMeasurement.shared, ModelMeasurement.shared, List.map_filterMap]
  refine List.filterMap_congr ?_
  rintro ⟨tag, weight⟩ -
  dsimp only
  cases mine.find? tag <;> cases theirs.find? tag <;> rfl

/-- What is shared are an objective's weight and a record of either measurement, of one metric. -/
lemma mem_shared {mine theirs : ModelMeasurement ℚ} {objectives : Objectives ℚ}
    {term : ℚ × Record ℚ × Record ℚ} (h : term ∈ ModelMeasurement.shared mine theirs objectives) :
    (∃ tag, (tag, term.1) ∈ objectives) ∧ term.2.1 ∈ mine.records ∧ term.2.2 ∈ theirs.records ∧
      term.2.1.metric = term.2.2.metric := by
  obtain ⟨⟨tag, weight⟩, hmem, hterm⟩ := List.mem_filterMap.mp h
  dsimp only at hterm
  split at hterm
  · rename_i a b ha hb
    cases hterm
    refine ⟨⟨tag, hmem⟩, List.mem_of_find?_eq_some ha, List.mem_of_find?_eq_some hb, ?_⟩
    have hown := List.find?_some ha
    have hother := List.find?_some hb
    rw [beq_iff_eq] at hown hother
    exact Metric.tag_injective (hown.trans hother.symm)
  · cases hterm

/-- Of compared records either one is compared with the other. -/
lemma Comparable.mem_compared (h : x.Comparable y) {a b : Record ℚ} :
    (b, a) ∈ y.compared x ↔ (a, b) ∈ x.compared y := by
  rw [compared, compared, ← h.objectives, shared_swap, List.map_map, List.mem_map, List.mem_map]
  constructor
  · rintro ⟨term, hterm, hswap⟩
    exact ⟨term, hterm, Prod.swap_injective hswap⟩
  · rintro ⟨term, hterm, hterms⟩
    exact ⟨term, hterm, congrArg Prod.swap hterms⟩

/-- What holds of the gains of all compared records in both directions holds of the gains of the
measurements. -/
lemma Comparable.gain {R : ℚ → ℚ → Prop} (hR : Additive R) (h : x.Comparable y)
    (hterms : ∀ r ∈ x.compared y, R (r.1.gainOver r.2) (r.2.gainOver r.1)) :
    R (x.measurement.gain y.measurement x.objectives)
      (y.measurement.gain x.measurement y.objectives) := by
  set shared := ModelMeasurement.shared x.measurement y.measurement x.objectives with hshared
  set weights := (shared.map (·.1)).sum with hweights
  have hown : x.measurement.gain y.measurement x.objectives =
      if weights ≤ 0 then 0
      else (shared.map fun t => t.1 / weights * t.2.1.gainOver t.2.2).sum :=
    ModelMeasurement.gain_eq_shared _ _ _
  have hother : y.measurement.gain x.measurement y.objectives =
      if weights ≤ 0 then 0
      else (shared.map fun t => t.1 / weights * t.2.2.gainOver t.2.1).sum := by
    rw [ModelMeasurement.gain_eq_shared, ← h.objectives, shared_swap, List.map_map, List.map_map]
    rfl
  rw [hown, hother]
  split_ifs with hnone
  · exact hR.zero
  · refine hR.sum fun t ht => hR.scale ?_ (hterms t.2 (List.mem_map_of_mem ht))
    obtain ⟨⟨tag, htag⟩, -⟩ := mem_shared ht
    exact div_pos (h.weights _ htag) (not_le.mp hnone)

end RunEntry

/-! ### Two runs -/

namespace RunMeasurement

variable {a b : RunMeasurement ℚ}

/-- What makes two runs comparable: as many models, and comparable measurements of each. -/
def Comparable (a b : RunMeasurement ℚ) : Prop :=
  List.Forall₂ RunEntry.Comparable a.models b.models

/-- The records of two runs that the objectives compare, model by model. -/
def compared (a b : RunMeasurement ℚ) : List (Record ℚ × Record ℚ) :=
  (a.models.zip b.models).flatMap fun (x, y) => x.compared y

/-- One of the metrics that count is better in the first run than in the second one. -/
def Wins (a b : RunMeasurement ℚ) : Prop := ∃ r ∈ a.compared b, r.1.improvesOn r.2 = true

/-- Each run is better than the other one in some metric that counts. -/
def TradeOff (a b : RunMeasurement ℚ) : Prop := a.Wins b ∧ b.Wins a

/-- Comparing is symmetric. -/
lemma Comparable.symm (h : a.Comparable b) : b.Comparable a :=
  (List.Forall₂.flip h).imp fun _ _ hentry => hentry.symm

/-- Compared records are of one metric, and their values are positive. -/
lemma Comparable.of_mem_compared (h : a.Comparable b) {r : Record ℚ × Record ℚ}
    (hr : r ∈ a.compared b) : r.1.metric = r.2.metric ∧ 0 < r.1.value ∧ 0 < r.2.value := by
  obtain ⟨⟨x, y⟩, hpair, hcompared⟩ := List.mem_flatMap.mp hr
  obtain ⟨term, hterm, rfl⟩ := List.mem_map.mp hcompared
  have hentry : x.Comparable y := (List.forall₂_iff_zip.mp h).2 hpair
  obtain ⟨-, hown, hother, hmetric⟩ := RunEntry.mem_shared hterm
  exact ⟨hmetric, hentry.own_pos _ hown, hentry.other_pos _ hother⟩

/-- The other way round the same records are compared. -/
lemma Comparable.mem_compared_swap (h : a.Comparable b) {r : Record ℚ × Record ℚ} :
    r.swap ∈ b.compared a ↔ r ∈ a.compared b := by
  obtain ⟨as⟩ := a
  obtain ⟨bs⟩ := b
  change List.Forall₂ RunEntry.Comparable as bs at h
  rw [compared, compared]
  induction h with
  | nil => simp
  | cons hentry _ ih =>
    rw [List.zip_cons_cons, List.zip_cons_cons, List.flatMap_cons, List.flatMap_cons,
      List.mem_append, List.mem_append]
    exact or_congr hentry.mem_compared ih

/-- The gains over another run, model by model. -/
def gains (a b : RunMeasurement ℚ) : List ℚ :=
  List.zipWith (fun x y => x.measurement.gain y.measurement x.objectives) a.models b.models

/-- The gain over another run is the mean of the gains of the models. -/
lemma gain_eq (a b : RunMeasurement ℚ) : a.gain b = ((a.gains b).length : ℚ)⁻¹ * (a.gains b).sum := by
  rw [gain, total_rat, zero_rat]
  show (if (a.gains b).isEmpty then (0 : ℚ) else (a.gains b).sum / (a.gains b).length) = _
  rw [mul_comm, ← div_eq_mul_inv]
  split_ifs with hempty
  · simp [List.isEmpty_iff.mp hempty]
  · rfl

/-- What holds of the gains of all compared records in both directions holds of the gains of the
runs. -/
lemma Comparable.gain_of_compared {R : ℚ → ℚ → Prop} (hR : Additive R) (h : a.Comparable b)
    (hrecords : ∀ r ∈ a.compared b, R (r.1.gainOver r.2) (r.2.gainOver r.1)) :
    R (a.gain b) (b.gain a) := by
  have hsum : R (a.gains b).sum (b.gains a).sum := by
    obtain ⟨as⟩ := a
    obtain ⟨bs⟩ := b
    change List.Forall₂ RunEntry.Comparable as bs at h
    rw [compared] at hrecords
    rw [gains, gains]
    induction h with
    | nil => exact hR.zero
    | cons hentry _ ih =>
      rw [List.zip_cons_cons, List.flatMap_cons, List.forall_mem_append] at hrecords
      exact hR.add (hentry.gain hR hrecords.1) (ih hrecords.2)
  have hlength : (b.gains a).length = (a.gains b).length := by
    rw [gains, gains, List.length_zipWith, List.length_zipWith, min_comm]
  rw [gain_eq, gain_eq, hlength]
  rcases Nat.eq_zero_or_pos (a.gains b).length with hnone | hpos
  · simpa [hnone] using hR.zero
  · exact hR.scale (by positivity) hsum

/-! ### Ranking by gain -/

/-- A run that wins nothing against another one is favoured by no gain. -/
lemma Comparable.favours (h : a.Comparable b) (hwins : ¬b.Wins a) :
    Favours (a.gain b) (b.gain a) := by
  refine h.gain_of_compared additive_favours fun r hr => ?_
  obtain ⟨hmetric, hown, hother⟩ := h.of_mem_compared hr
  refine Record.favours_gainOver hmetric hown hother ?_
  by_contra himproves
  exact hwins ⟨r.swap, h.mem_compared_swap.mpr hr, by simpa using himproves⟩

/-- Without a trade-off the gains of two runs over each other rank them in opposite ways. -/
lemma Comparable.byGain_swap (h : a.Comparable b) (htrade : ¬a.TradeOff b) :
    RunConstraints.rank.byGain b a = (RunConstraints.rank.byGain a b).swap := by
  have hsigns : ∀ {own other : ℚ}, Favours own other →
      (0 < other ↔ own < 0) ∧ (other < 0 ↔ 0 < own) := by
    intro own other hfavours
    have hown := hfavours.own_nonneg
    have hother := hfavours.other_nonpos
    have hzero := hfavours.zero_iff
    refine ⟨⟨fun hlt => ?_, fun hlt => ?_⟩, ⟨fun hlt => ?_, fun hlt => ?_⟩⟩
    · linarith
    · linarith
    · exact lt_of_le_of_ne hown fun heq => hlt.ne (hzero.mp heq.symm)
    · exact lt_of_le_of_ne hother fun heq => hlt.ne' (hzero.mpr heq)
  have hopposite : (0 < b.gain a ↔ a.gain b < 0) ∧ (b.gain a < 0 ↔ 0 < a.gain b) := by
    by_cases hwins : b.Wins a
    · have hfavours := h.symm.favours fun howns => htrade ⟨howns, hwins⟩
      exact ⟨(hsigns hfavours).2.symm, (hsigns hfavours).1.symm⟩
    · exact hsigns (h.favours hwins)
  rw [RunConstraints.rank.byGain, RunConstraints.rank.byGain]
  simp only [less_rat, zero_rat, hopposite.1, hopposite.2, decide_eq_true_eq]
  rcases lt_trichotomy (a.gain b) 0 with hneg | hzero | hpos
  · simp [hneg, hneg.le.not_gt]
  · simp [hzero]
  · simp [hpos, hpos.le.not_gt]

/-- If two runs improve on each other, then they trade off, and where they differ some greater value
is the better one. -/
lemma Comparable.tradeOff_of_improvesOn (h : a.Comparable b) (hown : a.improvesOn b = true)
    (hother : b.improvesOn a = true) :
    a.TradeOff b ∧ ∃ r ∈ a.compared b,
      r.1.metric.polarity = .higherIsBetter ∧ r.1.value ≠ r.2.value := by
  rw [improvesOn, less_rat, zero_rat, decide_eq_true_eq] at hown hother
  refine ⟨⟨?_, ?_⟩, ?_⟩
  · by_contra hwins
    exact (h.symm.favours hwins).other_nonpos.not_gt hown
  · by_contra hwins
    exact (h.favours hwins).other_nonpos.not_gt hother
  · by_contra hnone
    have hsum : a.gain b + b.gain a ≤ 0 := by
      refine h.gain_of_compared additive_add_nonpos fun r hr => ?_
      obtain ⟨hmetric, hpos, hpos'⟩ := h.of_mem_compared hr
      exact Record.gainOver_add_nonpos hmetric hpos hpos' fun hdiffer => hnone ⟨r, hr, hdiffer⟩
    linarith

end RunMeasurement

/-! ### Ranking runs -/

namespace RunConstraints

open RunMeasurement

variable {a b : RunMeasurement ℚ}

/-- A run that is feasible, or that is infeasible by less, ranks above the other one in either order. -/
lemma rank_swap_of_apart (constraints : RunConstraints ℚ)
    (h : ¬(constraints.satisfied a = constraints.satisfied b ∧
      (constraints.satisfied a = false → constraints.penalty a = constraints.penalty b))) :
    constraints.rank (some b) (some a) = (constraints.rank (some a) (some b)).swap := by
  rw [rank, rank]
  cases ha : constraints.satisfied a <;> cases hb : constraints.satisfied b
  · have hpenalty : constraints.penalty a ≠ constraints.penalty b := by
      intro heq
      exact h ⟨ha.trans hb.symm, fun _ => heq⟩
    rcases lt_or_gt_of_ne hpenalty with hlt | hlt
    · simp [equal_rat, less_rat, hlt, hlt.ne, hlt.ne', hlt.le.not_gt]
    · simp [equal_rat, less_rat, hlt, hlt.ne, hlt.ne', hlt.le.not_gt]
  · rfl
  · rfl
  · exact absurd ⟨ha.trans hb.symm, fun hfalse => absurd hfalse (by simp [ha])⟩ h

/-- Runs that are feasible alike are ranked by their gain. -/
lemma rank_of_alike (constraints : RunConstraints ℚ)
    (hsatisfied : constraints.satisfied a = constraints.satisfied b)
    (hpenalty : constraints.satisfied a = false → constraints.penalty a = constraints.penalty b) :
    constraints.rank (some a) (some b) = rank.byGain a b := by
  rw [rank, ← hsatisfied]
  cases ha : constraints.satisfied a with
  | true => rfl
  | false => simp [equal_rat, hpenalty ha]

/-- Two comparable runs are ranked in opposite ways when they are swapped, unless they are feasible
alike, with equal penalties, and each is better than the other one in some metric.  Only then can
both be improvements on each other, and only if they differ in a metric of which greater values are
better. -/
theorem rank_swap_or_tradeOff (h : a.Comparable b) (constraints : RunConstraints ℚ) :
    (constraints.rank (some b) (some a) = (constraints.rank (some a) (some b)).swap ∨
      a.TradeOff b ∧ constraints.satisfied a = constraints.satisfied b ∧
        (constraints.satisfied a = false → constraints.penalty a = constraints.penalty b)) ∧
    (a.improvesOn b = true → b.improvesOn a = true →
      a.TradeOff b ∧ ∃ r ∈ a.compared b,
        r.1.metric.polarity = .higherIsBetter ∧ r.1.value ≠ r.2.value) := by
  refine ⟨?_, h.tradeOff_of_improvesOn⟩
  by_cases halike : constraints.satisfied a = constraints.satisfied b ∧
      (constraints.satisfied a = false → constraints.penalty a = constraints.penalty b)
  · by_cases htrade : a.TradeOff b
    · exact Or.inr ⟨htrade, halike⟩
    · left
      obtain ⟨hsatisfied, hpenalty⟩ := halike
      have hpenalty' : constraints.satisfied b = false →
          constraints.penalty b = constraints.penalty a :=
        fun hb => (hpenalty (hsatisfied.trans hb)).symm
      rw [rank_of_alike constraints hsatisfied hpenalty,
        rank_of_alike constraints hsatisfied.symm hpenalty']
      exact h.byGain_swap htrade
  · exact Or.inl (rank_swap_of_apart constraints halike)

/-- A run of models of which nothing but the throughput was measured. -/
def throughputs (values : List ℚ) : RunMeasurement ℚ where
  models := values.map fun value => ⟨.ofRecords "" [⟨.throughput, value, 0⟩], Objectives.standard⟩

/-- Runs of as many models with positive throughputs are comparable. -/
lemma comparable_throughputs {values others : List ℚ}
    (h : List.Forall₂ (fun value other : ℚ => 0 < value ∧ 0 < other) values others) :
    (throughputs values).Comparable (throughputs others) := by
  refine List.forall₂_map_left_iff.mpr (List.forall₂_map_right_iff.mpr (h.imp ?_))
  rintro value other ⟨hvalue, hother⟩
  exact
    { objectives := rfl
      weights := by
        intro objective hobjective
        rw [List.mem_singleton.mp hobjective]
        exact one_pos
      metrics := by simp [ModelMeasurement.ofRecords, ModelMeasurement.set, ModelMeasurement.put]
      own_pos := by simpa [ModelMeasurement.ofRecords, ModelMeasurement.set, ModelMeasurement.put]
      other_pos := by simpa [ModelMeasurement.ofRecords, ModelMeasurement.set, ModelMeasurement.put] }

/-- Twice the throughput of one model for half of that of another one is an improvement, and so is
giving it back. -/
theorem rank_not_swap_of_throughputs :
    (throughputs [200, 50]).Comparable (throughputs [100, 100]) ∧
      (throughputs [200, 50]).improvesOn (throughputs [100, 100]) = true ∧
      (throughputs [100, 100]).improvesOn (throughputs [200, 50]) = true ∧
      rank [none, none] (some (throughputs [100, 100])) (some (throughputs [200, 50])) ≠
        (rank [none, none] (some (throughputs [200, 50])) (some (throughputs [100, 100]))).swap := by
  refine ⟨comparable_throughputs (by norm_num), by decide +kernel, by decide +kernel,
    by decide +kernel⟩

/-- A gain in one model that costs nothing in another one ranks the runs in opposite ways. -/
theorem rank_swap_of_throughputs :
    (throughputs [200, 100]).Comparable (throughputs [100, 100]) ∧
      rank [none, none] (some (throughputs [100, 100])) (some (throughputs [200, 100])) =
        (rank [none, none] (some (throughputs [200, 100])) (some (throughputs [100, 100]))).swap := by
  have hcomparable : (throughputs [200, 100]).Comparable (throughputs [100, 100]) :=
    comparable_throughputs (by norm_num)
  refine ⟨hcomparable, ?_⟩
  rcases (rank_swap_or_tradeOff hcomparable [none, none]).1 with hswap | ⟨⟨-, hwins⟩, -⟩
  · exact hswap
  · exact absurd hwins (by unfold Wins; decide +kernel)

end RunConstraints

end ServingTuner
