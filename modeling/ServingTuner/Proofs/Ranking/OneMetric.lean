import Mathlib
import ServingTuner.Proofs.Ranking.Preorder

/-!
# Ranking by one metric

The gain of a run over another one is relative to the other one's value, so that the gains in both
directions are fractions of different values.  If there is one model and one objective, only the
sign of this one gain counts, and it says which record is the better one
(`RunMeasurement.IsRankedBy.byGain_eq`).  Each result then has a place by four values that are
compared one after another (`RunConstraints.standing`): whether there is a run, whether it meets the
constraints, how small its penalty is, and how good its record.  Ranking compares these places
(`RunConstraints.rank_eq_compare`), so among such results it is the preorder that a search relies on
(`RunConstraints.isPreorder_of_isRankedBy`).
-/

namespace ServingTuner

open Quantity

/-! ### The record that counts -/

namespace Record

variable {a b : Record ℚ}

/-- The value of a record, the greater the better. -/
def merit (r : Record ℚ) : ℚ :=
  match r.metric.polarity with
  | .higherIsBetter => r.value
  | .lowerIsBetter => -r.value

/-- A record is ahead by the difference of the merits. -/
lemma lead_eq_merit_sub (hmetric : a.metric = b.metric) : a.lead b = a.merit - b.merit := by
  unfold lead merit
  rw [hmetric]
  cases b.metric.polarity with
  | higherIsBetter => rfl
  | lowerIsBetter => exact (neg_sub_neg a.value b.value).symm

/-- Two records of one metric compare as their merits do. -/
lemma compare_eq_merit (hmetric : a.metric = b.metric) :
    a.compare b = Ord.compare a.merit b.merit := by
  unfold compare merit
  rw [hmetric, equal_rat, less_rat]
  rcases lt_trichotomy a.value b.value with hlt | heq | hgt
  · cases b.metric.polarity <;>
      simp [hlt.ne, hlt.not_gt, compare_lt_iff_lt.mpr, compare_gt_iff_gt.mpr, hlt]
  · simp [heq]
  · cases b.metric.polarity <;>
      simp [hgt.ne', hgt, compare_lt_iff_lt.mpr, compare_gt_iff_gt.mpr]

end Record

namespace RunMeasurement

variable {a b : RunMeasurement ℚ} {objective : String × ℚ} {r r' : Record ℚ}

/-- A run of one model that has one objective.  Of the metric of this objective it has a record, with
a positive value. -/
structure IsRankedBy (run : RunMeasurement ℚ) (objective : String × ℚ) (r : Record ℚ) : Prop where
  models : ∃ measurement, run.models = [⟨measurement, [objective]⟩] ∧
    measurement.find? objective.1 = some r
  pos : 0 < r.value

/-- The records that two runs are ranked by are of one metric. -/
lemma IsRankedBy.metric_eq (ha : a.IsRankedBy objective r) (hb : b.IsRankedBy objective r') :
    r.metric = r'.metric := by
  obtain ⟨own, -, hown⟩ := ha.models
  obtain ⟨other, -, hother⟩ := hb.models
  apply Metric.tag_injective
  have htag := List.find?_some hown
  have htag' := List.find?_some hother
  rw [beq_iff_eq] at htag htag'
  exact htag.trans htag'.symm

/-- The gain of a run over another one is that of its record: the only weight and the only model
count in full. -/
lemma IsRankedBy.gain_eq (hweight : 0 < objective.2) (ha : a.IsRankedBy objective r)
    (hb : b.IsRankedBy objective r') : a.gain b = r.gainOver r' := by
  obtain ⟨own, hmodels, hown⟩ := ha.models
  obtain ⟨other, hmodels', hother⟩ := hb.models
  have hshared : ModelMeasurement.shared own other [objective] = [(objective.2, r, r')] := by
    simp [ModelMeasurement.shared, hown, hother]
  have hgain : own.gain other [objective] = r.gainOver r' := by
    unfold ModelMeasurement.gain
    simp [hshared, total_rat, zero_rat, atMost_rat, hweight.not_ge, hweight.ne']
  rw [RunMeasurement.gain_eq, gains, hmodels, hmodels']
  simp [hgain]

/-- Ranking by gain is to compare the gain with nothing. -/
lemma byGain_eq_compare (a b : RunMeasurement ℚ) :
    RunConstraints.rank.byGain a b = compare (a.gain b) 0 := by
  unfold RunConstraints.rank.byGain
  rcases lt_trichotomy (a.gain b) 0 with hlt | heq | hgt
  · simp [less_rat, zero_rat, hlt, hlt.not_gt, compare_lt_iff_lt.mpr]
  · simp [less_rat, zero_rat, heq]
  · simp [less_rat, zero_rat, hgt, compare_gt_iff_gt.mpr]

/-- The run with the better record has the gain. -/
lemma IsRankedBy.byGain_eq (hweight : 0 < objective.2) (ha : a.IsRankedBy objective r)
    (hb : b.IsRankedBy objective r') : RunConstraints.rank.byGain a b = r.compare r' := by
  have hmetric := ha.metric_eq hb
  have hgain : a.gain b = (100 / r'.value) * (r.merit - r'.merit) := by
    rw [ha.gain_eq hweight hb, Record.gainOver_eq hmetric hb.pos.ne', Record.lead_eq_merit_sub hmetric]
    ring
  have hpos : 0 < 100 / r'.value := div_pos (by norm_num) hb.pos
  calc RunConstraints.rank.byGain a b =
        cmp ((100 / r'.value) * (r.merit - r'.merit)) ((100 / r'.value) * 0) := by
        rw [byGain_eq_compare, hgain, mul_zero, cmp_eq_compare]
    _ = cmp (r.merit - r'.merit) 0 := cmp_mul_pos_left hpos _ _
    _ = cmp r.merit r'.merit := cmp_sub_zero r.merit r'.merit
    _ = r.compare r' := by rw [cmp_eq_compare, Record.compare_eq_merit hmetric]

end RunMeasurement

/-! ### The place of a result -/

namespace RunConstraints

variable {constraints : RunConstraints ℚ} {a b : Option (RunMeasurement ℚ)} {r r' : Record ℚ}

/-- Compares two results by one criterion after another: whether there is a run, whether it meets the
constraints, and if it does not, how small its penalty is.  What is left is decided by the last
criterion. -/
def stages (constraints : RunConstraints ℚ) (a b : Option (RunMeasurement ℚ)) (last : Ordering) :
    Ordering :=
  match a, b with
  | some a, some b =>
    (compare (constraints.satisfied a) (constraints.satisfied b)).then
      ((if constraints.satisfied a then .eq
        else compare (constraints.penalty b) (constraints.penalty a)).then last)
  | a, b => compare a.isSome b.isSome

/-- The ranking goes by these criteria, and its last one is the gain. -/
lemma rank_eq_stages {last : Ordering}
    (h : ∀ own ∈ a, ∀ other ∈ b, rank.byGain own other = last) :
    constraints.rank a b = constraints.stages a b last := by
  rcases a with _ | own <;> rcases b with _ | other
  · rfl
  · rfl
  · rfl
  · rw [rank, stages, ← h own rfl other rfl]
    cases constraints.satisfied own <;> cases constraints.satisfied other
    · rcases lt_trichotomy (constraints.penalty own) (constraints.penalty other) with hlt | heq | hgt
      · simp [equal_rat, less_rat, hlt, hlt.ne, compare_gt_iff_gt.mpr]
      · simp [equal_rat, heq]
      · simp [equal_rat, less_rat, hgt.ne', hgt.not_gt, compare_lt_iff_lt.mpr hgt]
    · rfl
    · rfl
    · rfl

/-- Pairs are compared by their first components, and then by the second ones. -/
lemma compare_toLex {β γ : Type} [LinearOrder β] [LinearOrder γ] (x x' : β) (y y' : γ) :
    compare (toLex (x, y)) (toLex (x', y')) = (compare x x').then (compare y y') := by
  rw [Prod.Lex.compare_def]
  rfl

/-- The opposites of two numbers compare the other way round. -/
lemma compare_neg (x y : ℚ) : compare (-x) (-y) = compare y x := by
  have hanti : StrictAnti fun x : ℚ => -x := fun _ _ hlt => neg_lt_neg hlt
  rw [← cmp_eq_compare, ← cmp_eq_compare]
  exact hanti.cmp_map_eq x y

/-- The place of a result among others, by the criteria of the ranking.  The greater place is the
better one. -/
def standing (constraints : RunConstraints ℚ) (result : Option (RunMeasurement ℚ)) (r : Record ℚ) :
    Bool ×ₗ Bool ×ₗ ℚ ×ₗ ℚ :=
  match result with
  | none => toLex (false, toLex (false, toLex (0, 0)))
  | some run =>
    let penalty := if constraints.satisfied run then 0 else constraints.penalty run
    toLex (true, toLex (constraints.satisfied run, toLex (-penalty, r.merit)))

/-- To compare by these criteria is to compare the places, if the records are of one metric. -/
lemma stages_eq_compare (h : ∀ own ∈ a, ∀ other ∈ b, r.metric = r'.metric) :
    constraints.stages a b (r.compare r') =
      compare (constraints.standing a r) (constraints.standing b r') := by
  have hbelow : compare false true = .lt := compare_lt_iff_lt.mpr Bool.false_lt_true
  have habove : compare true false = .gt := compare_gt_iff_gt.mpr Bool.false_lt_true
  rcases a with _ | own <;> rcases b with _ | other
  · simp [stages, standing]
  · simp [stages, standing, compare_toLex, hbelow]
  · simp [stages, standing, compare_toLex, habove]
  · rw [stages, standing, standing, Record.compare_eq_merit (h own rfl other rfl)]
    cases constraints.satisfied own <;> cases constraints.satisfied other
    · simp [compare_toLex, compare_neg]
    · simp [compare_toLex, hbelow]
    · simp [compare_toLex, habove]
    · simp [compare_toLex]

/-- To rank results by one metric is to compare their places. -/
lemma rank_eq_compare {objective : String × ℚ} (hweight : 0 < objective.2)
    (ha : ∀ run ∈ a, run.IsRankedBy objective r) (hb : ∀ run ∈ b, run.IsRankedBy objective r') :
    constraints.rank a b = compare (constraints.standing a r) (constraints.standing b r') := by
  rw [← stages_eq_compare fun own hown other hother => (ha own hown).metric_eq (hb other hother)]
  apply rank_eq_stages
  intro own hown other hother
  exact (ha own hown).byGain_eq hweight (hb other hother)

/-- Among results that are ranked by one metric the ranking is a total preorder. -/
theorem isPreorder_of_isRankedBy {objective : String × ℚ} (hweight : 0 < objective.2)
    {results : List (Option (RunMeasurement ℚ))}
    (h : ∀ result ∈ results, ∃ r, ∀ run ∈ result, run.IsRankedBy objective r) :
    constraints.IsPreorder results := by
  constructor
  · intro a ha b hb
    obtain ⟨r, hr⟩ := h a ha
    obtain ⟨r', hr'⟩ := h b hb
    rw [rank_eq_compare hweight hr' hr, rank_eq_compare hweight hr hr']
    exact Std.OrientedOrd.eq_swap
  · intro a ha b hb c hc hab hbc
    obtain ⟨r, hr⟩ := h a ha
    obtain ⟨r', hr'⟩ := h b hb
    obtain ⟨r'', hr''⟩ := h c hc
    rw [rank_eq_compare hweight hr hr', compare_ge_iff_ge] at hab
    rw [rank_eq_compare hweight hr' hr'', compare_ge_iff_ge] at hbc
    rw [rank_eq_compare hweight hr hr'', compare_ge_iff_ge]
    exact hbc.trans hab

/-- Take any results that are ranked by one and the same metric, each with its record of it; some of
them may be of failed runs.  They rank as by four criteria one after another, of which the last one
compares the records.  This is a total preorder: each ranks equal to itself, in opposite ways when
two of them are swapped, and what ranks at least as high as a result ranks at least as high as all
that this does. -/
theorem rank_of_isRankedBy {ι : Type} {runs : ι → Option (RunMeasurement ℚ)} {records : ι → Record ℚ}
    {objective : String × ℚ} (hweight : 0 < objective.2)
    (hruns : ∀ i, ∀ run ∈ runs i, run.IsRankedBy objective (records i))
    (constraints : RunConstraints ℚ) :
    (∀ i j, constraints.rank (runs i) (runs j) =
        constraints.stages (runs i) (runs j) ((records i).compare (records j))) ∧
      (∀ i, constraints.rank (runs i) (runs i) = .eq) ∧
      (∀ i j, constraints.rank (runs j) (runs i) = (constraints.rank (runs i) (runs j)).swap) ∧
      ∀ i j k, constraints.rank (runs i) (runs j) ≠ .lt → constraints.rank (runs j) (runs k) ≠ .lt →
        constraints.rank (runs i) (runs k) ≠ .lt := by
  have hpreorder : ∀ i j k, constraints.IsPreorder [runs i, runs j, runs k] := by
    intro i j k
    apply isPreorder_of_isRankedBy hweight
    simp only [List.forall_mem_cons]
    exact ⟨⟨_, hruns i⟩, ⟨_, hruns j⟩, ⟨_, hruns k⟩, List.forall_mem_nil _⟩
  refine ⟨?_, ?_, ?_, ?_⟩
  · intro i j
    apply rank_eq_stages
    intro own hown other hother
    exact (hruns i own hown).byGain_eq hweight (hruns j other hother)
  · intro i
    exact (hpreorder i i i).rank_self (by simp)
  · intro i j
    exact (hpreorder i j j).swap _ (by simp) _ (by simp)
  · intro i j k
    exact (hpreorder i j k).trans _ (by simp) _ (by simp) _ (by simp)

/-- The latencies of some runs, the first of which failed. -/
def latencies : Fin 5 → Option ℚ := ![none, some 40, some 20, some 12, some 10]

/-- The record of a latency. -/
def latencyRecord (latency : ℚ) : Record ℚ := ⟨.latencyAverage, latency, 0⟩

/-- A run that is ranked by its latency. -/
def latencyRun (latency : ℚ) : RunMeasurement ℚ :=
  ⟨[⟨.ofRecords "" [latencyRecord latency], [(Metric.latencyAverage.tag, 2)]⟩]⟩

/-- A latency of at most 15. -/
def latencyBelow : RunConstraints ℚ := [some [(Metric.latencyAverage.tag, { upper := some 15 })]]

/-- Runs that meet the limit, miss it and fail are ranked in this order. -/
theorem rank_of_latencies :
    latencyBelow.rank ((latencies 1).map latencyRun) ((latencies 1).map latencyRun) = .eq ∧
      latencyBelow.rank ((latencies 0).map latencyRun) ((latencies 4).map latencyRun) =
        (latencyBelow.rank ((latencies 4).map latencyRun) ((latencies 0).map latencyRun)).swap ∧
      latencyBelow.rank ((latencies 4).map latencyRun) ((latencies 0).map latencyRun) ≠ .lt := by
  have hpos : ∀ i, ∀ latency ∈ latencies i, 0 < latency := by decide +kernel
  have hweight : (0 : ℚ) < (Metric.latencyAverage.tag, (2 : ℚ)).2 := by norm_num
  have hruns : ∀ i, ∀ run ∈ (latencies i).map latencyRun,
      run.IsRankedBy (Metric.latencyAverage.tag, 2) (latencyRecord ((latencies i).getD 1)) := by
    intro i run hrun
    obtain ⟨latency, hlatency, rfl⟩ := Option.mem_map.mp hrun
    rw [show latencies i = some latency from hlatency, Option.getD_some]
    exact ⟨⟨_, rfl, rfl⟩, hpos i latency hlatency⟩
  obtain ⟨-, hself, hswap, htrans⟩ := rank_of_isRankedBy hweight hruns latencyBelow
  refine ⟨hself 1, hswap 4 0, ?_⟩
  apply htrans 4 2 0
  · decide +kernel
  · decide +kernel

end RunConstraints

end ServingTuner
