import Mathlib
import ServingTuner.Proofs.Ranking.Order

/-!
# Nearer to the constraints

The last word in a comparison of two runs is the gain of one over the other, and gains need neither
be transitive nor go in opposite directions.  They only decide between runs that meet the
constraints equally well, though.  To come nearer to the constraints (`RunConstraints.isNearer`) is
the part of the ranking that is a weak order as soon as the penalties are totally ordered, and no
gain outweighs it (`RunConstraints.rank_eq_of_isNearer`).  A run that failed comes after all that
were measured (`RunConstraints.isCloser`).
-/

namespace ServingTuner

open Quantity

namespace RunConstraints

variable {α : Type} [Quantity α] {constraints : RunConstraints α} {a b c : RunMeasurement α}

/-- Whether a run comes nearer to the constraints than another one that does not meet them: it meets
them, or has a smaller penalty. -/
def isNearer (constraints : RunConstraints α) (a b : RunMeasurement α) : Bool :=
  !constraints.satisfied b &&
    (constraints.satisfied a || less (constraints.penalty a) (constraints.penalty b))

/-- Nothing is nearer than a run that meets the constraints. -/
lemma isNearer_of_satisfied (hb : constraints.satisfied b = true) :
    constraints.isNearer a b = false := by
  rw [isNearer, hb, Bool.not_true, Bool.false_and]

/-- Of runs that do not meet the constraints the one with the smaller penalty is nearer. -/
lemma isNearer_of_violated (ha : constraints.satisfied a = false)
    (hb : constraints.satisfied b = false) :
    constraints.isNearer a b = less (constraints.penalty a) (constraints.penalty b) := by
  rw [isNearer, ha, hb, Bool.not_false, Bool.true_and, Bool.false_or]

/-- A run that does not meet the constraints is not nearer than one that does. -/
lemma satisfied_of_isNearer_eq_false (h : constraints.isNearer a b = false)
    (ha : constraints.satisfied a = true) : constraints.satisfied b = true := by
  simpa [isNearer, ha] using h

/-- Of two runs at most one is nearer. -/
lemma isNearer_asymm (horder : TotallyOrdered [constraints.penalty a, constraints.penalty b])
    (h : constraints.isNearer a b = true) : constraints.isNearer b a = false := by
  cases ha : constraints.satisfied a with
  | true => exact isNearer_of_satisfied ha
  | false =>
    have hb : constraints.satisfied b = false := by
      by_contra hb
      rw [isNearer_of_satisfied (by simpa using hb)] at h
      cases h
    rw [isNearer_of_violated ha hb] at h
    rw [isNearer_of_violated hb ha]
    exact horder.asymm _ (by simp) _ (by simp) h

/-- No run is nearer than itself. -/
lemma isNearer_self (horder : TotallyOrdered [constraints.penalty a]) :
    constraints.isNearer a a = false := by
  by_contra h
  rw [Bool.not_eq_false] at h
  have hnot := isNearer_asymm (horder.mono (by simp)) h
  rw [h] at hnot
  cases hnot

/-- What is not nearer than a run is not nearer than any that the run is not nearer than. -/
lemma isNearer_trans
    (horder : TotallyOrdered [constraints.penalty a, constraints.penalty b, constraints.penalty c])
    (hba : constraints.isNearer b a = false) (hcb : constraints.isNearer c b = false) :
    constraints.isNearer c a = false := by
  cases ha : constraints.satisfied a with
  | true => exact isNearer_of_satisfied ha
  | false =>
    have hb : constraints.satisfied b = false := by
      by_contra hb
      rw [satisfied_of_isNearer_eq_false hba (by simpa using hb)] at ha
      cases ha
    have hc : constraints.satisfied c = false := by
      by_contra hc
      rw [satisfied_of_isNearer_eq_false hcb (by simpa using hc)] at hb
      cases hb
    rw [isNearer_of_violated hb ha] at hba
    rw [isNearer_of_violated hc hb] at hcb
    rw [isNearer_of_violated hc ha]
    exact horder.trans _ (by simp) _ (by simp) _ (by simp) hba hcb

/-- The nearer one of two runs ranks above the other one, and their gain decides if neither is. -/
theorem rank_eq_of_isNearer
    (horder : TotallyOrdered [constraints.penalty a, constraints.penalty b]) :
    constraints.rank (some a) (some b) =
      if constraints.isNearer a b then .gt
      else if constraints.isNearer b a then .lt
      else rank.byGain a b := by
  rw [rank]
  cases ha : constraints.satisfied a <;> cases hb : constraints.satisfied b
  · rw [isNearer_of_violated ha hb, isNearer_of_violated hb ha]
    have hequal := horder.equal_iff (constraints.penalty a) (by simp) (constraints.penalty b)
      (by simp)
    cases hless : less (constraints.penalty a) (constraints.penalty b) <;>
      cases hless' : less (constraints.penalty b) (constraints.penalty a) <;>
      simp_all
  · rw [isNearer_of_satisfied hb, isNearer, ha, hb]
    rfl
  · rw [isNearer, ha, hb]
    rfl
  · rw [isNearer_of_satisfied hb, isNearer_of_satisfied ha]
    rfl

/-- A run is at least as near as one that it does not rank below. -/
lemma isNearer_of_rank_ne_lt
    (horder : TotallyOrdered [constraints.penalty a, constraints.penalty b])
    (h : constraints.rank (some a) (some b) ≠ .lt) : constraints.isNearer b a = false := by
  rw [rank_eq_of_isNearer horder] at h
  split_ifs at h with hown hother
  · exact isNearer_asymm horder hown
  · exact absurd rfl h
  · simpa using hother

/-- A run that does not rank above another one is not nearer either. -/
lemma isNearer_of_rank_ne_gt
    (horder : TotallyOrdered [constraints.penalty a, constraints.penalty b])
    (h : constraints.rank (some a) (some b) ≠ .gt) : constraints.isNearer a b = false := by
  by_contra hnear
  rw [Bool.not_eq_false] at hnear
  rw [rank_eq_of_isNearer horder, if_pos hnear] at h
  exact h rfl

/-! ### Failed runs -/

variable {own other third : Option (RunMeasurement α)} {results : List (Option (RunMeasurement α))}

/-- Whether a result is closer to the constraints than another one: that of a run that was measured
where the other one failed, or that of a nearer run. -/
def isCloser (constraints : RunConstraints α) :
    Option (RunMeasurement α) → Option (RunMeasurement α) → Bool
  | none, _ => false
  | some _, none => true
  | some a, some b => constraints.isNearer a b

/-- The penalties of the runs among some results. -/
def penalties (constraints : RunConstraints α) (results : List (Option (RunMeasurement α))) :
    List α :=
  results.reduceOption.map constraints.penalty

/-- The penalty of a run among some results. -/
lemma mem_penalties (h : some a ∈ results) : constraints.penalty a ∈ constraints.penalties results :=
  List.mem_map_of_mem (List.reduceOption_mem_iff.mpr h)

/-- No result is closer than itself. -/
lemma isCloser_self (horder : TotallyOrdered (constraints.penalties results)) (h : own ∈ results) :
    constraints.isCloser own own = false := by
  cases own with
  | none => rfl
  | some a => exact isNearer_self (horder.mono (by simp [mem_penalties h]))

/-- What is not closer than a result is not closer than any that this is not closer than. -/
lemma isCloser_trans (horder : TotallyOrdered (constraints.penalties results)) (hown : own ∈ results)
    (hother : other ∈ results) (hthird : third ∈ results)
    (h : constraints.isCloser other own = false) (h' : constraints.isCloser third other = false) :
    constraints.isCloser third own = false := by
  rcases third with _ | c
  · rfl
  rcases other with _ | b
  · cases h'
  rcases own with _ | a
  · cases h
  exact isNearer_trans
    (horder.mono (by simp [mem_penalties hown, mem_penalties hother, mem_penalties hthird])) h h'

/-- A result is at least as close as one that it does not rank below. -/
lemma isCloser_of_rank_ne_lt (horder : TotallyOrdered (constraints.penalties results))
    (hown : own ∈ results) (hother : other ∈ results) (h : constraints.rank own other ≠ .lt) :
    constraints.isCloser other own = false := by
  rcases other with _ | b
  · rfl
  rcases own with _ | a
  · exact absurd rfl h
  exact isNearer_of_rank_ne_lt (horder.mono (by simp [mem_penalties hown, mem_penalties hother])) h

/-- A result that does not rank above another one is not closer either. -/
lemma isCloser_of_rank_ne_gt (horder : TotallyOrdered (constraints.penalties results))
    (hown : own ∈ results) (hother : other ∈ results) (h : constraints.rank own other ≠ .gt) :
    constraints.isCloser own other = false := by
  rcases own with _ | a
  · rfl
  rcases other with _ | b
  · exact absurd rfl h
  exact isNearer_of_rank_ne_gt (horder.mono (by simp [mem_penalties hown, mem_penalties hother])) h

end RunConstraints

end ServingTuner
