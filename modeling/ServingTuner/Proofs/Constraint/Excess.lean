import Mathlib
import ServingTuner.Proofs.Ranking.Gain

/-!
# What a penalty adds up

A run's penalty is a sum over its records (`RunConstraints.penalty_eq`): each record whose metric is
constrained at the position of its model adds how far it lies below the lower limit and above the
upper one.  A limit scales its own overages (`Constraint.scale`), and the scale is positive for every
limit, be it negative or zero.  So nothing cancels, and the penalty is zero exactly if there is no
violation (`RunConstraints.penalty_eq_zero_iff`).
-/

namespace ServingTuner

open Quantity

/-! ### The overages of one value -/

namespace Constraint

variable {α : Type} [Quantity α]

/-- A value is allowed if it is not below the lower limit and not above the upper one. -/
lemma allows_iff {c : Constraint α} {value : α} :
    c.allows value = true ↔
      (∀ lower ∈ c.lower, less value lower = false) ∧
        ∀ upper ∈ c.upper, less upper value = false := by
  obtain ⟨lower, upper⟩ := c
  cases lower <;> cases upper <;> simp [allows]

variable {c : Constraint ℚ} {value limit overage : ℚ}

/-- What overages beyond a limit are divided by: the magnitude of the limit, or one if the limit is
zero. -/
def scale (limit : ℚ) : ℚ := if limit = 0 then 1 else |limit|

/-- No limit makes an overage vanish or turns its sign. -/
lemma scale_pos (limit : ℚ) : 0 < scale limit := by
  unfold scale
  split_ifs with hzero
  · exact one_pos
  · exact abs_pos.mpr hzero

/-- A positive limit is its own scale. -/
lemma scale_of_pos (h : 0 < limit) : scale limit = limit := by
  rw [scale, if_neg h.ne', abs_of_pos h]

/-- The relative overage is the overage in units of the scale. -/
lemma relative_eq : relative overage limit = overage / scale limit := by
  have hmagnitude : magnitude limit = |limit| := by
    rw [magnitude, less_rat, zero_rat]
    rcases lt_or_ge limit 0 with hneg | hnonneg
    · simp [hneg, abs_of_neg hneg]
    · simp [hnonneg.not_gt, abs_of_nonneg hnonneg]
  rw [relative, hmagnitude, less_rat, zero_rat, scale]
  by_cases hzero : limit = 0
  · simp [hzero]
  · simp [hzero]

/-- How far a value lies beyond a limit, if there is one, in units of its scale: the distance on the
far side of the limit, and nothing on the near side. -/
def beyond (limit : Option ℚ) (distance : ℚ → ℚ) : ℚ :=
  limit.elim 0 fun limit => max (distance limit) 0 / scale limit

/-- How far a value lies outside a constraint. -/
def excess (c : Constraint ℚ) (value : ℚ) : ℚ :=
  beyond c.lower (· - value) + beyond c.upper (value - ·)

section

variable {limit : Option ℚ} {distance : ℚ → ℚ}

lemma beyond_nonneg : 0 ≤ beyond limit distance := by
  unfold beyond
  cases limit with
  | none => exact le_rfl
  | some limit => exact div_nonneg (le_max_right _ _) (scale_pos limit).le

/-- A value does not lie beyond a limit exactly if it is on the near side. -/
lemma beyond_eq_zero_iff : beyond limit distance = 0 ↔ ∀ l ∈ limit, distance l ≤ 0 := by
  unfold beyond
  cases limit with
  | none => simp
  | some limit => simp [(scale_pos limit).ne']

end

lemma excess_nonneg : 0 ≤ c.excess value := add_nonneg beyond_nonneg beyond_nonneg

/-- What is allowed is what does not lie outside. -/
lemma excess_eq_zero_iff : c.excess value = 0 ↔ c.allows value = true := by
  rw [excess, add_eq_zero_iff_of_nonneg beyond_nonneg beyond_nonneg, beyond_eq_zero_iff,
    beyond_eq_zero_iff, allows_iff]
  simp [less_rat]

/-- The overages of a value add up to how far it lies outside. -/
lemma sum_overages : (c.overages value).sum = c.excess value := by
  have hside : ∀ {limit distance : ℚ} {violated : Bool}, (violated = true ↔ 0 < distance) →
      (if violated then [relative distance limit] else []).sum = max distance 0 / scale limit := by
    intro limit distance violated h
    rcases lt_or_ge 0 distance with hbeyond | hnear
    · simp [h.mpr hbeyond, relative_eq, hbeyond.le]
    · simp [h, hnear.not_gt, hnear]
  rw [overages, List.sum_append, excess]
  congr 1
  · cases c.lower with
    | none => rfl
    | some lower => exact hside (by simp [less_rat])
  · cases c.upper with
    | none => rfl
    | some upper => exact hside (by simp [less_rat])

end Constraint

/-! ### The records of a run -/

namespace RunMeasurement

variable {α : Type} {run : RunMeasurement α} {position : ℕ} {r : Record α}

/-- All records of a run, each with the position of its model. -/
def records (run : RunMeasurement α) : List (ℕ × Record α) :=
  run.models.zipIdx.flatMap fun (entry, position) => entry.measurement.records.map (position, ·)

/-- The records of a run are those of its models. -/
lemma mem_records :
    (position, r) ∈ run.records ↔
      ∃ entry, run.models[position]? = some entry ∧ r ∈ entry.measurement.records := by
  simp only [records, List.mem_flatMap, Prod.exists, List.mem_zipIdx_iff_getElem?, List.mem_map,
    Prod.mk.injEq]
  constructor
  · rintro ⟨entry, _, hentry, r', hr', rfl, rfl⟩
    exact ⟨entry, hentry, hr'⟩
  · rintro ⟨entry, hentry, hr⟩
    exact ⟨entry, position, hentry, r, hr, rfl, rfl⟩

/-- The records of the first model come first. -/
lemma records_cons (entry : RunEntry α) (models : List (RunEntry α)) :
    records ⟨entry :: models⟩ =
      entry.measurement.records.map (0, ·) ++
        (records ⟨models⟩).map fun (position, r) => (position + 1, r) := by
  simp [records, List.zipIdx_cons, List.zipIdx_succ, List.map_flatMap, List.flatMap_map,
    Function.comp_def]

end RunMeasurement

namespace RunConstraints

variable {α : Type} {constraints : RunConstraints α} {run : RunMeasurement α}

/-- The constraint of a metric for the model at a position. -/
def constraintAt? (constraints : RunConstraints α) (position : ℕ) (tag : String) :
    Option (Constraint α) :=
  (constraints[position]?).join.bind (Fields.get? · tag)

/-- The records that are constrained, with their constraints, are found record by record. -/
lemma constrained_eq :
    constraints.constrained run = run.records.filterMap fun record =>
      (constraints.constraintAt? record.1 record.2.metric.tag).map (·, record.2) := by
  obtain ⟨models⟩ := run
  induction models generalizing constraints with
  | nil => simp [constrained, RunMeasurement.records]
  | cons entry models ih =>
    rw [RunMeasurement.records_cons, List.filterMap_append, List.filterMap_map,
      List.filterMap_map]
    cases constraints with
    | nil => simp [constrained, constraintAt?]
    | cons set constraints =>
      rw [constrained, List.zip_cons_cons, List.flatMap_cons]
      congr 1
      · cases set with
        | none => simp [constraintAt?]
        | some set => rfl
      · exact ih

/-- A run is feasible if the constraints allow all its records. -/
lemma satisfied_iff [Quantity α] :
    constraints.satisfied run = true ↔
      ∀ record ∈ run.records, ∀ c ∈ constraints.constraintAt? record.1 record.2.metric.tag,
        c.allows record.2.value = true := by
  rw [satisfied, constrained_eq, List.all_eq_true]
  constructor
  · intro h record hrecord c hc
    exact h (c, record.2) (List.mem_filterMap.mpr ⟨record, hrecord, by rw [hc, Option.map_some]⟩)
  · intro h pair hpair
    obtain ⟨record, hrecord, hpair⟩ := List.mem_filterMap.mp hpair
    obtain ⟨c, hc, rfl⟩ := Option.map_eq_some_iff.mp hpair
    exact h record hrecord c hc

/-! ### The penalty as a sum over the records -/

variable {constraints : RunConstraints ℚ} {run : RunMeasurement ℚ} {record : ℕ × Record ℚ}

/-- How far a record of the model at a position lies outside its constraint, if it has one. -/
def excessAt (constraints : RunConstraints ℚ) (record : ℕ × Record ℚ) : ℚ :=
  (constraints.constraintAt? record.1 record.2.metric.tag).elim 0 (·.excess record.2.value)

lemma excessAt_nonneg : 0 ≤ constraints.excessAt record := by
  unfold excessAt
  cases constraints.constraintAt? record.1 record.2.metric.tag with
  | none => exact le_rfl
  | some c => exact c.excess_nonneg

/-- A record adds nothing exactly if its constraint allows it. -/
lemma excessAt_eq_zero_iff :
    constraints.excessAt record = 0 ↔
      ∀ c ∈ constraints.constraintAt? record.1 record.2.metric.tag,
        c.allows record.2.value = true := by
  unfold excessAt
  cases constraints.constraintAt? record.1 record.2.metric.tag with
  | none => simp
  | some c => simp [Constraint.excess_eq_zero_iff]

/-- The penalty adds up, in percent, how far the records lie outside. -/
theorem penalty_eq : constraints.penalty run = (run.records.map constraints.excessAt).sum * 100 := by
  have hsum : ∀ records : List (ℕ × Record ℚ),
      ((records.filterMap fun record =>
        (constraints.constraintAt? record.1 record.2.metric.tag).map (·, record.2)).flatMap
          fun (c, r) => c.overages r.value).sum = (records.map constraints.excessAt).sum := by
    intro records
    induction records with
    | nil => rfl
    | cons record records ih =>
      rw [List.map_cons, List.sum_cons, ← ih, List.filterMap_cons, excessAt]
      cases constraints.constraintAt? record.1 record.2.metric.tag with
      | none => simp
      | some c => simp [Constraint.sum_overages]
  rw [penalty, total_rat, constrained_eq, hsum]
  rfl

/-- Every record that is constrained lies within its limits. -/
def MetBy (constraints : RunConstraints ℚ) (run : RunMeasurement ℚ) : Prop :=
  ∀ position entry, run.models[position]? = some entry → ∀ r ∈ entry.measurement.records,
    ∀ c, constraints.constraintAt? position r.metric.tag = some c →
      (∀ lower ∈ c.lower, lower ≤ r.value) ∧ ∀ upper ∈ c.upper, r.value ≤ upper

/-- A run is feasible if every constrained record lies within its limits. -/
lemma satisfied_iff_metBy : constraints.satisfied run = true ↔ constraints.MetBy run := by
  have hallows : ∀ {c : Constraint ℚ} {value : ℚ}, c.allows value = true ↔
      (∀ lower ∈ c.lower, lower ≤ value) ∧ ∀ upper ∈ c.upper, value ≤ upper := by
    simp [Constraint.allows_iff, less_rat]
  rw [satisfied_iff]
  constructor
  · intro h position entry hentry r hr c hc
    exact hallows.mp (h (position, r) (RunMeasurement.mem_records.mpr ⟨entry, hentry, hr⟩) c hc)
  · rintro h ⟨position, r⟩ hrecord c hc
    obtain ⟨entry, hentry, hr⟩ := RunMeasurement.mem_records.mp hrecord
    exact hallows.mpr (h position entry hentry r hr c hc)

/-- No penalty is negative, and there is none exactly if the run is feasible, that is if every
constrained record of every model lies within its limits. -/
theorem penalty_eq_zero_iff (constraints : RunConstraints ℚ) (run : RunMeasurement ℚ) :
    0 ≤ constraints.penalty run ∧
      (constraints.penalty run = 0 ↔ constraints.satisfied run = true) ∧
      (constraints.satisfied run = true ↔ constraints.MetBy run) := by
  have hnonneg : ∀ excess ∈ run.records.map constraints.excessAt, 0 ≤ excess := by
    rw [List.forall_mem_map]
    exact fun _ _ => excessAt_nonneg
  rw [penalty_eq]
  refine ⟨mul_nonneg (List.sum_nonneg hnonneg) (by norm_num), ?_, satisfied_iff_metBy⟩
  rw [mul_eq_zero_iff_right (by norm_num), satisfied_iff]
  constructor
  · intro hzero record hrecord
    exact excessAt_eq_zero_iff.mp (List.all_zero_of_le_zero_le_of_sum_eq_zero hnonneg hzero
      (List.mem_map_of_mem hrecord))
  · intro hallowed
    apply List.sum_eq_zero
    rw [List.forall_mem_map]
    exact fun record hrecord => excessAt_eq_zero_iff.mpr (hallowed record hrecord)

end RunConstraints

end ServingTuner
