import Mathlib
import ServingTuner.Proofs.Constraint.Excess
import ServingTuner.Proofs.Ranking.Order

/-!
# Wider constraints

Constraints become wider as limits move outwards or are given up
(`RunConstraints.IsWiderThan`).  A run that met the narrower constraints meets the wider ones.  That
is all about comparisons, and it holds of doubles as well (`RunConstraints.satisfied_of_isWiderThan`).

What a run is charged is relative to the limits, so that a limit that moves outwards also changes the
scale.  For a positive limit and a value that is not negative it is the ratio of the two that counts,
and the ratio moves in one direction only.  So the penalty of a run does not grow
(`RunConstraints.penalty_le_of_isWiderThan`).
-/

namespace ServingTuner

open Quantity

/-! ### Numbers as limits -/

namespace Quantity

variable {α : Type} [Quantity α]

/-- These numbers can be limits: what is not below one of them is not below any that is no greater, and
what is not above one of them is not above any that is no less. -/
structure AreLimits (limits : List α) : Prop where
  below : ∀ x ∈ limits, ∀ y ∈ limits, less y x = false →
    ∀ value, less value y = false → less value x = false
  above : ∀ x ∈ limits, ∀ y ∈ limits, less x y = false →
    ∀ value, less y value = false → less x value = false

/-- Some of these limits can be limits as well. -/
lemma AreLimits.mono {limits others : List α} (h : AreLimits limits) (hsub : others ⊆ limits) :
    AreLimits others :=
  ⟨fun x hx y hy => h.below x (hsub hx) y (hsub hy),
    fun x hx y hy => h.above x (hsub hx) y (hsub hy)⟩

/-- All exact numbers can be limits. -/
lemma areLimits_rat (limits : List ℚ) : AreLimits limits := by
  constructor
  · intro x _ y _ hxy value hvalue
    simp only [less_rat, decide_eq_false_iff_not, not_lt] at *
    exact hxy.trans hvalue
  · intro x _ y _ hyx value hvalue
    simp only [less_rat, decide_eq_false_iff_not, not_lt] at *
    exact hvalue.trans hyx

/-- Doubles can be limits if none of them is NaN.  The values that are compared with them may be. -/
lemma areLimits_double {limits : List Float} (h : ∀ limit ∈ limits, limit.isNaN = false) :
    AreLimits limits := by
  constructor
  · intro x hx y hy hxy value hvalue
    by_contra hbelow
    rw [Bool.not_eq_false] at hbelow
    obtain ⟨hnan, -⟩ := isNaN_eq_false_of_less hbelow
    rw [less_double_iff hnan (h x hx)] at hbelow
    rw [← Bool.not_eq_true, less_double_iff (h y hy) (h x hx), not_lt] at hxy
    rw [← Bool.not_eq_true, less_double_iff hnan (h y hy)] at hvalue
    exact hvalue (hbelow.trans_le hxy)
  · intro x hx y hy hyx value hvalue
    by_contra habove
    rw [Bool.not_eq_false] at habove
    obtain ⟨-, hnan⟩ := isNaN_eq_false_of_less habove
    rw [less_double_iff (h x hx) hnan] at habove
    rw [← Bool.not_eq_true, less_double_iff (h x hx) (h y hy), not_lt] at hyx
    rw [← Bool.not_eq_true, less_double_iff (h y hy) hnan] at hvalue
    exact hvalue (hyx.trans_lt habove)

end Quantity

/-! ### The constraint of one metric -/

namespace Constraint

variable {α : Type} {wide c : Constraint α} {value limit : α}

/-- The limits of a constraint. -/
def limits (c : Constraint α) : List α := c.lower.toList ++ c.upper.toList

lemma mem_limits : limit ∈ c.limits ↔ limit ∈ c.lower ∨ limit ∈ c.upper := by
  simp [limits]

section

variable [Quantity α]

/-- Each limit of a wider constraint is one of the narrower one that did not move or moved
outwards. -/
structure IsWiderThan (wide c : Constraint α) : Prop where
  lower : ∀ lower ∈ wide.lower, ∃ own ∈ c.lower, less own lower = false
  upper : ∀ upper ∈ wide.upper, ∃ own ∈ c.upper, less upper own = false

/-- A wider constraint allows all that the narrower one does. -/
lemma IsWiderThan.allows (h : wide.IsWiderThan c) (hlimits : AreLimits (wide.limits ++ c.limits))
    (hvalue : c.allows value = true) : wide.allows value = true := by
  obtain ⟨hlower, hupper⟩ := allows_iff.mp hvalue
  rw [allows_iff]
  constructor
  · intro lower hwide
    obtain ⟨own, hown, houtwards⟩ := h.lower lower hwide
    exact hlimits.below lower (List.mem_append_left _ (mem_limits.mpr (Or.inl hwide)))
      own (List.mem_append_right _ (mem_limits.mpr (Or.inl hown))) houtwards value (hlower own hown)
  · intro upper hwide
    obtain ⟨own, hown, houtwards⟩ := h.upper upper hwide
    exact hlimits.above upper (List.mem_append_left _ (mem_limits.mpr (Or.inr hwide)))
      own (List.mem_append_right _ (mem_limits.mpr (Or.inr hown))) houtwards value (hupper own hown)

end

variable {wide c : Constraint ℚ} {value : ℚ}

/-- A value lies less far beyond a positive limit if the distance shrinks in units of the limit, or if
the limit is given up. -/
lemma beyond_le {far near : Option ℚ} {distance : ℚ → ℚ}
    (h : ∀ l ∈ far, ∃ own ∈ near, 0 < l ∧ 0 < own ∧ distance l / l ≤ distance own / own) :
    beyond far distance ≤ beyond near distance := by
  have hunits : ∀ {l : ℚ}, 0 < l → max (distance l) 0 / scale l = max (distance l / l) 0 := by
    intro l hl
    rw [scale_of_pos hl, ← max_div_div_right hl.le, zero_div]
  cases far with
  | none => exact beyond_nonneg
  | some l =>
    obtain ⟨own, hown, hl, hown', hle⟩ := h l rfl
    rw [beyond, beyond, Option.mem_def.mp hown, Option.elim_some, Option.elim_some, hunits hl,
      hunits hown']
    exact max_le_max_right 0 hle

/-- A value that is not negative lies no further outside a wider constraint if all limits are
positive: on either side it is the ratio of value and limit that counts. -/
lemma IsWiderThan.excess_le (h : wide.IsWiderThan c)
    (hpos : ∀ limit ∈ wide.limits ++ c.limits, 0 < limit) (hvalue : 0 ≤ value) :
    wide.excess value ≤ c.excess value := by
  obtain ⟨hwide, hc⟩ := List.forall_mem_append.mp hpos
  apply add_le_add
  · apply beyond_le
    intro lower hlower
    obtain ⟨own, hown, houtwards⟩ := h.lower lower hlower
    have hle : lower ≤ own := by simpa [less_rat] using houtwards
    have hlower' : 0 < lower := hwide lower (mem_limits.mpr (Or.inl hlower))
    have hown' : 0 < own := hc own (mem_limits.mpr (Or.inl hown))
    refine ⟨own, hown, hlower', hown', ?_⟩
    rw [sub_div, sub_div, div_self hlower'.ne', div_self hown'.ne']
    gcongr
  · apply beyond_le
    intro upper hupper
    obtain ⟨own, hown, houtwards⟩ := h.upper upper hupper
    have hle : own ≤ upper := by simpa [less_rat] using houtwards
    have hupper' : 0 < upper := hwide upper (mem_limits.mpr (Or.inr hupper))
    have hown' : 0 < own := hc own (mem_limits.mpr (Or.inr hown))
    refine ⟨own, hown, hupper', hown', ?_⟩
    rw [sub_div, sub_div, div_self hupper'.ne', div_self hown'.ne']
    gcongr

end Constraint

/-! ### The constraints of a run -/

namespace RunConstraints

variable {α : Type} {wide constraints : RunConstraints α} {run : RunMeasurement α}
  {position : ℕ} {tag : String} {c : Constraint α} {limit : α}

/-- All limits of some constraints. -/
def limits (constraints : RunConstraints α) : List α :=
  constraints.reduceOption.flatMap fun set => (Fields.values set).flatMap Constraint.limits

/-- The limits of the constraint of a metric are among all limits. -/
lemma mem_limits (hc : constraints.constraintAt? position tag = some c)
    (hlimit : limit ∈ c.limits) : limit ∈ constraints.limits := by
  obtain ⟨set, hset, hget⟩ := Option.bind_eq_some_iff.mp hc
  have hmem : some set ∈ constraints := List.mem_of_getElem? (Option.join_eq_some_iff.mp hset)
  exact List.mem_flatMap.mpr ⟨set, List.reduceOption_mem_iff.mpr hmem,
    List.mem_flatMap.mpr ⟨c, Fields.mem_values_of_get? hget, hlimit⟩⟩

/-- What holds of all limits of two constraints of runs holds of those of a metric in both. -/
lemma forall_mem_limits {P : α → Prop} {own : Constraint α}
    (h : ∀ limit ∈ wide.limits ++ constraints.limits, P limit)
    (hc : wide.constraintAt? position tag = some c)
    (hown : constraints.constraintAt? position tag = some own) :
    ∀ limit ∈ c.limits ++ own.limits, P limit := by
  rw [List.forall_mem_append] at h ⊢
  exact ⟨fun limit hlimit => h.1 limit (mem_limits hc hlimit),
    fun limit hlimit => h.2 limit (mem_limits hown hlimit)⟩

section

variable [Quantity α]

/-- Wider constraints are wider for each metric that they constrain, at each position. -/
def IsWiderThan (wide constraints : RunConstraints α) : Prop :=
  ∀ position tag c, wide.constraintAt? position tag = some c →
    ∃ own, constraints.constraintAt? position tag = some own ∧ c.IsWiderThan own

/-- A run that meets some constraints meets all wider ones. -/
lemma satisfied_of_isWiderThan (h : wide.IsWiderThan constraints)
    (hlimits : AreLimits (wide.limits ++ constraints.limits))
    (hsatisfied : constraints.satisfied run = true) : wide.satisfied run = true := by
  rw [satisfied_iff] at hsatisfied ⊢
  intro record hrecord c hc
  obtain ⟨own, hown, hwider⟩ := h _ _ c hc
  have hsub : c.limits ++ own.limits ⊆ wide.limits ++ constraints.limits :=
    forall_mem_limits (fun _ hlimit => hlimit) hc hown
  exact hwider.allows (hlimits.mono hsub) (hsatisfied record hrecord own hown)

end

variable {wide constraints : RunConstraints ℚ} {record : ℕ × Record ℚ}

/-- No record lies further outside wider constraints. -/
lemma excessAt_le_of_isWiderThan (h : wide.IsWiderThan constraints)
    (hpos : ∀ limit ∈ wide.limits ++ constraints.limits, 0 < limit)
    (hvalue : 0 ≤ record.2.value) : wide.excessAt record ≤ constraints.excessAt record := by
  rw [excessAt]
  cases hc : wide.constraintAt? record.1 record.2.metric.tag with
  | none => exact excessAt_nonneg
  | some c =>
    obtain ⟨own, hown, hwider⟩ := h _ _ c hc
    rw [excessAt, hown]
    exact hwider.excess_le (forall_mem_limits hpos hc hown) hvalue

/-- To widen constraints never hurts.  What met the narrower ones meets the wider ones, be the numbers
exact or doubles, of which no limit is NaN.  If all limits are positive and no record is negative, the
penalty does not grow either. -/
theorem penalty_le_of_isWiderThan :
    (∀ wide constraints : RunConstraints Float, wide.IsWiderThan constraints →
      (∀ limit ∈ wide.limits ++ constraints.limits, limit.isNaN = false) →
      ∀ run, constraints.satisfied run = true → wide.satisfied run = true) ∧
    ∀ wide constraints : RunConstraints ℚ, wide.IsWiderThan constraints →
      (∀ run, constraints.satisfied run = true → wide.satisfied run = true) ∧
      ((∀ limit ∈ wide.limits ++ constraints.limits, 0 < limit) →
        ∀ run : RunMeasurement ℚ, (∀ record ∈ run.records, 0 ≤ record.2.value) →
          wide.penalty run ≤ constraints.penalty run) := by
  refine ⟨?_, ?_⟩
  · intro wide constraints h hnan run hsatisfied
    exact satisfied_of_isWiderThan h (areLimits_double hnan) hsatisfied
  · intro wide constraints h
    refine ⟨fun run hsatisfied => satisfied_of_isWiderThan h (areLimits_rat _) hsatisfied, ?_⟩
    intro hpos run hvalues
    rw [penalty_eq, penalty_eq]
    gcongr
    exact List.sum_le_sum fun record hrecord =>
      excessAt_le_of_isWiderThan h hpos (hvalues record hrecord)

/-- A cap on the latency and a floor for the throughput of a model. -/
def serviceLevel {α : Type} (latency throughput : α) : ConstraintSet α :=
  [(Metric.latencyP99.tag, { upper := some latency }),
    (Metric.throughput.tag, { lower := some throughput })]

/-- A model of which both were measured. -/
def served {α : Type} [Quantity α] (latency throughput : α) : RunEntry α :=
  ⟨.ofRecords "" [⟨.latencyP99, latency, zero⟩, ⟨.throughput, throughput, zero⟩], []⟩

/-- A service level is widened by a higher cap and a lower floor, and by constraining the first model
only. -/
lemma isWiderThan_of_serviceLevel {α : Type} [Quantity α] {latency throughput high low : α}
    (hcap : less high latency = false) (hfloor : less throughput low = false)
    (others : RunConstraints α) :
    IsWiderThan [some (serviceLevel high low)] (some (serviceLevel latency throughput) :: others) := by
  intro position tag c hc
  cases position with
  | succ position => simp [constraintAt?] at hc
  | zero =>
    simp only [constraintAt?, serviceLevel, List.getElem?_cons_zero, Option.join_some,
      Option.bind_some, Fields.get?] at hc ⊢
    split_ifs at hc ⊢ with hlatency hthroughput
    · obtain rfl := Option.some.inj hc
      exact ⟨_, rfl, by constructor <;> simp [hcap]⟩
    · obtain rfl := Option.some.inj hc
      exact ⟨_, rfl, by constructor <;> simp [hfloor]⟩

/-- One run keeps a service level, which is then widened, and another one misses it in both models. -/
theorem penalty_le_of_serviceLevel :
    satisfied [some (serviceLevel 25.0 80.0)] ⟨[served 18.0 120.0, served 6.0 40.0]⟩ = true ∧
      penalty [some (serviceLevel (25 : ℚ) 80)] ⟨[served 40 50, served 6 40]⟩ ≤
        penalty [some (serviceLevel 20 100), some (serviceLevel 5 50)]
          ⟨[served 40 50, served 6 40]⟩ := by
  constructor
  · exact penalty_le_of_isWiderThan.1 _ [some (serviceLevel 20.0 100.0), some (serviceLevel 6.0 40.0)]
      (isWiderThan_of_serviceLevel (by decide +kernel) (by decide +kernel) _) (by decide +kernel) _
      (by decide +kernel)
  · exact (penalty_le_of_isWiderThan.2 _ _
      (isWiderThan_of_serviceLevel (by decide +kernel) (by decide +kernel) _)).2
      (by decide +kernel) _ (by decide +kernel)

end RunConstraints

end ServingTuner
