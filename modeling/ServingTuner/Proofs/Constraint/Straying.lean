import Mathlib
import ServingTuner.Proofs.Constraint.Excess

/-!
# Straying further from the constraints

A search that has met no feasible run yet goes by penalties, so every step away from the limits must
show in them.  A value strays when it moves beyond a limit, or further beyond it, from a place that is
on the right side of the opposite limit (`Constraint.StraysTo`).  As a penalty is a sum over the
records, one record that strays makes it greater, whatever the other records add, and the order of
the records of a model does not matter (`RunConstraints.penalty_lt_of_straysTo`).
-/

namespace ServingTuner

namespace Constraint

variable {c : Constraint ℚ} {value other : ℚ}

/-- Moving from one value to another one leads out of the constraint, or further out.  Limits may
contradict each other, so the start must not lie beyond the opposite limit: the way would lead towards
that one. -/
inductive StraysTo (c : Constraint ℚ) (value other : ℚ) : Prop
  | upwards (upper : ℚ) (hupper : upper ∈ c.upper) (hbeyond : upper < other)
      (hfurther : value < other) (hopposite : ∀ lower ∈ c.lower, lower ≤ value)
  | downwards (lower : ℚ) (hlower : lower ∈ c.lower) (hbeyond : other < lower)
      (hfurther : other < value) (hopposite : ∀ upper ∈ c.upper, value ≤ upper)

/-- A value that gets further beyond a limit counts for more. -/
lemma beyond_lt {limit : Option ℚ} {distance distance' : ℚ → ℚ} {l : ℚ} (hl : l ∈ limit)
    (hbeyond : 0 < distance' l) (hfurther : distance l < distance' l) :
    beyond limit distance < beyond limit distance' := by
  rw [beyond, beyond, Option.mem_def.mp hl, Option.elim_some, Option.elim_some,
    max_eq_left hbeyond.le]
  exact div_lt_div_of_pos_right (max_lt hfurther hbeyond) (scale_pos l)

/-- A value that strays lies further outside. -/
lemma StraysTo.excess_lt (h : c.StraysTo value other) : c.excess value < c.excess other := by
  cases h with
  | upwards upper hupper hbeyond hfurther hopposite =>
    have hbelow : beyond c.lower (· - value) = 0 :=
      beyond_eq_zero_iff.mpr fun lower hlower => sub_nonpos.mpr (hopposite lower hlower)
    have habove : beyond c.upper (value - ·) < beyond c.upper (other - ·) :=
      beyond_lt hupper (sub_pos.mpr hbeyond) (sub_lt_sub_right hfurther upper)
    rw [excess, hbelow]
    exact add_lt_add_of_le_of_lt beyond_nonneg habove
  | downwards lower hlower hbeyond hfurther hopposite =>
    have habove : beyond c.upper (value - ·) = 0 :=
      beyond_eq_zero_iff.mpr fun upper hupper => sub_nonpos.mpr (hopposite upper hupper)
    have hbelow : beyond c.lower (· - value) < beyond c.lower (· - other) :=
      beyond_lt hlower (sub_pos.mpr hbeyond) (sub_lt_sub_left hfurther lower)
    rw [excess, habove]
    exact add_lt_add_of_lt_of_le hbelow beyond_nonneg

end Constraint

/-! ### Another record in a run -/

namespace RunMeasurement

variable {α : Type} {run run' : RunMeasurement α} {position index : ℕ} {r : Record α}

/-- The record of a run at a place: that of the model at a position which has an index among the
records of the model. -/
def recordAt? (run : RunMeasurement α) (position index : ℕ) : Option (Record α) :=
  (run.models[position]?).bind (·.measurement.records[index]?)

/-- A run with another record at a place. -/
def withRecordAt (run : RunMeasurement α) (position index : ℕ) (r : Record α) :
    RunMeasurement α where
  models := run.models.modify position fun entry =>
    { entry with
      measurement := { entry.measurement with
        records := entry.measurement.records.modify index fun _ => r } }

/-- What is modified is one element, and those before and after it stay. -/
lemma exists_modify {β : Type} {xs : List β} {i : ℕ} {x : β} (h : xs[i]? = some x) (f : β → β) :
    ∃ before after, before.length = i ∧ xs = before ++ x :: after ∧
      xs.modify i f = before ++ f x :: after := by
  obtain ⟨hi, hx⟩ := List.getElem?_eq_some_iff.mp h
  obtain ⟨before, y, after, rfl, rfl, hmodify⟩ := List.exists_of_modify f hi
  obtain rfl : y = x := by simpa using hx
  exact ⟨before, after, rfl, rfl, hmodify⟩

/-- With another record at a place a run has the same records before and after it. -/
lemma exists_records_withRecordAt (h : run.recordAt? position index = some r) (r' : Record α) :
    ∃ before after, run.records = before ++ (position, r) :: after ∧
      (run.withRecordAt position index r').records = before ++ (position, r') :: after := by
  obtain ⟨entry, hentry, hr⟩ := Option.bind_eq_some_iff.mp h
  obtain ⟨front, back, rfl, hmodels, hmodels'⟩ := exists_modify hentry fun entry =>
    { entry with
      measurement := { entry.measurement with
        records := entry.measurement.records.modify index fun _ => r' } }
  obtain ⟨before, after, -, hrecords, hrecords'⟩ := exists_modify hr fun _ => r'
  refine ⟨records ⟨front⟩ ++ before.map (front.length, ·),
    after.map (front.length, ·) ++
      (back.zipIdx (front.length + 1)).flatMap fun entry =>
        entry.1.measurement.records.map (entry.2, ·), ?_, ?_⟩
  · rw [records, hmodels]
    simp [records, List.zipIdx_append, hrecords]
  · rw [records, withRecordAt, hmodels']
    simp [records, List.zipIdx_append, hrecords']

/-- Two runs have the same records of each model, in any order. -/
def IsReordered (run run' : RunMeasurement α) : Prop :=
  List.Forall₂ (fun entry entry' =>
    entry.measurement.records.Perm entry'.measurement.records) run.models run'.models

/-- If the records of each model are reordered, then so are those of the run. -/
lemma IsReordered.records_perm (h : run.IsReordered run') : run.records.Perm run'.records := by
  obtain ⟨models⟩ := run
  obtain ⟨models'⟩ := run'
  change List.Forall₂ _ models models' at h
  induction h with
  | nil => rfl
  | cons hentry _ ih =>
    rw [records_cons, records_cons]
    exact (hentry.map _).append (ih.map _)

end RunMeasurement

/-! ### The penalty -/

namespace RunConstraints

variable {constraints : RunConstraints ℚ} {run : RunMeasurement ℚ} {position index : ℕ}
  {r : Record ℚ}

/-- With another record at a place the penalty changes by what the two records add. -/
lemma penalty_withRecordAt (h : run.recordAt? position index = some r) (r' : Record ℚ) :
    constraints.penalty (run.withRecordAt position index r') =
      constraints.penalty run +
        (constraints.excessAt (position, r') - constraints.excessAt (position, r)) * 100 := by
  obtain ⟨before, after, hrecords, hrecords'⟩ := RunMeasurement.exists_records_withRecordAt h r'
  rw [penalty_eq, penalty_eq, hrecords, hrecords']
  simp only [List.map_append, List.map_cons, List.sum_append, List.sum_cons]
  ring

/-- If a constrained record of a run is replaced by one of the same metric whose value strays from its
constraint, then the penalty grows.  The order of the records of the models does not change the
penalty. -/
theorem penalty_lt_of_straysTo (constraints : RunConstraints ℚ) (run : RunMeasurement ℚ) :
    (∀ position index r r' c, run.recordAt? position index = some r → r'.metric = r.metric →
      constraints.constraintAt? position r.metric.tag = some c → c.StraysTo r.value r'.value →
      constraints.penalty run < constraints.penalty (run.withRecordAt position index r')) ∧
    ∀ run', run.IsReordered run' → constraints.penalty run' = constraints.penalty run := by
  constructor
  · intro position index r r' c hr hmetric hc hstrays
    have hexcess : constraints.excessAt (position, r) < constraints.excessAt (position, r') := by
      simp only [excessAt, hmetric, hc, Option.elim_some]
      exact hstrays.excess_lt
    rw [penalty_withRecordAt hr]
    linarith
  · intro run' hreordered
    rw [penalty_eq, penalty_eq, (hreordered.records_perm.map constraints.excessAt).sum_eq]

/-- Limits that no value meets, for the second one of two models. -/
def unmeetable : RunConstraints ℚ :=
  [none, some [(Metric.latencyAverage.tag, { lower := some 5, upper := some 0 })]]

/-- A run of two models, of which the second one has these records. -/
def pairWith (records : List (Record ℚ)) : RunMeasurement ℚ :=
  ⟨[⟨⟨"", [⟨.latencyAverage, 9, 0⟩]⟩, []⟩, ⟨⟨"", records⟩, []⟩]⟩

/-- A value that meets the lower limit and strays from the upper one, which is zero and less than the
lower one. -/
theorem penalty_lt_of_unmeetable :
    unmeetable.penalty (pairWith [⟨.throughput, 1, 0⟩, ⟨.latencyAverage, 6, 0⟩]) <
        unmeetable.penalty ((pairWith [⟨.throughput, 1, 0⟩, ⟨.latencyAverage, 6, 0⟩]).withRecordAt
          1 1 ⟨.latencyAverage, 8, 3⟩) ∧
      unmeetable.penalty (pairWith [⟨.latencyAverage, 6, 0⟩, ⟨.throughput, 1, 0⟩]) =
        unmeetable.penalty (pairWith [⟨.throughput, 1, 0⟩, ⟨.latencyAverage, 6, 0⟩]) := by
  constructor
  · refine (penalty_lt_of_straysTo unmeetable _).1 1 1 _ ⟨.latencyAverage, 8, 3⟩ _ rfl rfl rfl ?_
    exact .upwards 0 rfl (by norm_num) (by norm_num) (by norm_num)
  · refine (penalty_lt_of_straysTo unmeetable _).2 _ ?_
    exact .cons (List.Perm.refl _) (.cons (List.Perm.swap _ _ []) .nil)

end RunConstraints

end ServingTuner
