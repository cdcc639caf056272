import Mathlib
import ServingTuner.Proofs.Ranking.Nearness
import ServingTuner.Proofs.Search.Accounts
import ServingTuner.Proofs.Search.Trials

/-!
# Feasible runs

A search keeps the nearest of its trials: it never gives up a run for one that is less near to the
constraints, whatever the gain (`IsNearest.consider`).  So a search that has met a feasible run ends
with a feasible one, and one that has not ends with the smallest penalty of all
(`run_feasible_iff`).
-/

namespace ServingTuner

open Quantity

/-! ### The nearest of all trials -/

namespace HillClimb

variable {α : Type} {measure : Measure α} {s after : HillClimb α} {run : RunMeasurement α}
  {trials : List (Trial α)}

/-- The runs that were measured, of those that the measure function was handed. -/
def successes (measure : Measure α) (calls : List RunConfig) : List (RunMeasurement α) :=
  (answers measure calls).filterMap (·.2)

/-- The runs that were measured in some trials. -/
def successful (trials : List (Trial α)) : List (RunMeasurement α) := trials.filterMap (·.result)

/-- A further trial adds its run, if that was measured. -/
lemma successful_concat (trials : List (Trial α)) (trial : Trial α) :
    successful (trials ++ [trial]) = successful trials ++ trial.result.toList := by
  rw [successful, List.filterMap_append, successful]
  cases hresult : trial.result <;> simp [hresult]

/-- The runs that were measured in the trials that a search remembers are those that the measure
function measured. -/
lemma Remembers.mem_successful (h : s.Remembers measure trials) :
    run ∈ successful trials ↔ run ∈ successes measure s.calls := by
  rw [successful, successes, ← h.answers, List.mem_filterMap, List.mem_filterMap]
  constructor
  · rintro ⟨trial, htrial, hresult⟩
    exact ⟨_, h.tried trial htrial, hresult⟩
  · rintro ⟨entry, hentry, hresult⟩
    obtain ⟨trial, htrial, rfl⟩ := h.answered entry hentry
    exact ⟨trial, htrial, hresult⟩

variable [Quantity α] {scan : Scan α} {session : Session} {constraints : RunConstraints α}
  {maxSteps : UInt32} {p : Ascent α} {runs : List (RunMeasurement α)}

/-- The best run is one of these, nothing among them is nearer to the constraints, and it is marked
feasible if it meets them.  Only where there are no runs there is no best one. -/
def IsNearest (constraints : RunConstraints α) (runs : List (RunMeasurement α)) :
    Option (BestRun α) → Prop
  | none => runs = []
  | some best =>
    best.feasible = constraints.satisfied best.measurement ∧ best.measurement ∈ runs ∧
      ∀ run ∈ runs, constraints.isNearer run best.measurement = false

/-- A nearest run of some is one of them and one more, if this does not rank above it. -/
lemma IsNearest.keep {best : BestRun α} (h : IsNearest constraints runs (some best))
    (horder : TotallyOrdered ((runs ++ [run]).map constraints.penalty))
    (hrank : constraints.rank (some run) (some best.measurement) ≠ .gt) :
    IsNearest constraints (runs ++ [run]) (some best) := by
  obtain ⟨hfeasible, hmem, hnearest⟩ := h
  have hpair : TotallyOrdered ([run, best.measurement].map constraints.penalty) :=
    horder.mono (List.map_subset _ (by simp [hmem]))
  have hnear := RunConstraints.isNearer_of_rank_ne_gt hpair hrank
  exact ⟨hfeasible, List.mem_append_left _ hmem,
    List.forall_mem_append.mpr ⟨hnearest, List.forall_mem_singleton.mpr hnear⟩⟩

/-- Nothing is nearer to the constraints than a run that does not rank below a nearest one. -/
lemma IsNearest.isNearer_eq_false {best : BestRun α} (h : IsNearest constraints runs (some best))
    (horder : TotallyOrdered ((runs ++ [run]).map constraints.penalty))
    (hrank : constraints.rank (some run) (some best.measurement) ≠ .lt) :
    ∀ other ∈ runs, constraints.isNearer other run = false := by
  obtain ⟨-, hmem, hnearest⟩ := h
  intro other hother
  have hall : TotallyOrdered ([run, best.measurement, other].map constraints.penalty) :=
    horder.mono (List.map_subset _ (by simp [hmem, hother]))
  have hpair : TotallyOrdered ([run, best.measurement].map constraints.penalty) :=
    horder.mono (List.map_subset _ (by simp [hmem]))
  have hnear := RunConstraints.isNearer_of_rank_ne_lt hpair hrank
  exact RunConstraints.isNearer_trans hall hnear (hnearest other hother)

/-- To consider one more run is to keep a nearest one. -/
lemma IsNearest.consider (h : IsNearest s.constraints runs s.best)
    (horder : TotallyOrdered ((runs ++ [run]).map s.constraints.penalty)) (config : RunConfig)
    (coordinate : Option Coordinate) :
    IsNearest s.constraints (runs ++ [run]) (s.consider config (some run) coordinate).best := by
  have hlast : run ∈ runs ++ [run] := List.mem_append_right _ List.mem_cons_self
  have hown : TotallyOrdered ([run].map s.constraints.penalty) :=
    horder.mono (List.map_subset _ (by simp))
  have hself : s.constraints.isNearer run run = false := RunConstraints.isNearer_self hown
  cases hbest : s.best with
  | none =>
    rw [hbest] at h
    obtain rfl : runs = [] := h
    rw [HillClimb.consider, hbest]
    exact ⟨rfl, hlast, List.forall_mem_singleton.mpr hself⟩
  | some best =>
    rw [hbest] at h
    simp only [HillClimb.consider, hbest]
    split_ifs with himproves
    · have hnearest := h.isNearer_eq_false horder fun hlt => by simp [hlt] at himproves
      exact ⟨rfl, hlast,
        List.forall_mem_append.mpr ⟨hnearest, List.forall_mem_singleton.mpr hself⟩⟩
    · rw [hbest]
      exact h.keep horder fun hgt => himproves (by rw [hgt]; rfl)

/-- A search that remembers its trials, and whose best run is a nearest one of them if their
penalties are totally ordered. -/
structure KeepsNearest (measure : Measure α) (constraints : RunConstraints α)
    (trials : List (Trial α)) (s : HillClimb α) : Prop where
  remembers : s.Remembers measure trials
  ranks : s.constraints = constraints
  best : TotallyOrdered ((successful trials).map constraints.penalty) →
    IsNearest constraints (successful trials) s.best

/-- A search that tries a run keeps the nearest of the trials with this as the last one. -/
lemma KeepsNearest.attempt (h : s.KeepsNearest measure constraints trials)
    (config : RunConfig) (coordinate : Option Coordinate) :
    (s.attempt measure config coordinate).2.KeepsNearest measure constraints
      (trials ++ [⟨coordinate, config, (s.attempt measure config coordinate).1⟩]) := by
  let found := s.result measure config
  let trial : Trial α := ⟨coordinate, config, found.1⟩
  obtain ⟨added, asked, -, hresult⟩ := result_eq measure config s
  have hfound : found.2 = _ := hresult
  obtain ⟨best, hconsidered⟩ := consider_eq config found.1 coordinate found.2
  have hranks : found.2.constraints = constraints := by rw [hfound, ← h.ranks]
  have hkept : found.2.best = s.best := by rw [hfound]
  show (found.2.consider config found.1 coordinate).KeepsNearest measure constraints
    (trials ++ [trial])
  refine ⟨?_, ?_, ?_⟩
  · rw [hconsidered]
    exact (h.remembers.result config coordinate).congr rfl rfl
  · rw [hconsidered]
    exact hranks
  · intro horder
    rw [successful_concat] at horder ⊢
    have hbefore := h.best (horder.mono (List.map_subset _ (List.subset_append_left _ _)))
    rw [← hkept, ← hranks] at hbefore
    rw [← hranks] at horder ⊢
    show IsNearest _ (successful trials ++ found.1.toList) _
    cases hrun : found.1 with
    | none =>
      rw [Option.toList_none, List.append_nil]
      exact hbefore
    | some run =>
      rw [show trial.result = some run from hrun] at horder
      exact hbefore.consider horder config coordinate

/-- A search on its way keeps the nearest of its trials. -/
lemma Reaches.exists_keepsNearest
    (h : (fresh session constraints maxSteps).Reaches measure scan p) :
    ∃ trials, p.search.KeepsNearest measure constraints trials := by
  refine h.of_attempts (P := fun t => ∃ trials, t.KeepsNearest measure constraints trials) ?_ ?_ ?_
  · have hnone := ledger_fresh measure session constraints maxSteps
    exact ⟨[], hnone.remembers, rfl, fun _ => rfl⟩
  · rintro t config coordinate ⟨trials, ht⟩
    exact ⟨_, ht.attempt config coordinate⟩
  · rintro t session' measured steps ⟨trials, ht⟩
    exact ⟨trials, ht.remembers.congr rfl rfl, ht.ranks, ht.best⟩

/-- Take a search that has run to its end, and let the penalties of the runs that were measured be
totally ordered.  Nothing is asked of their gains, which another scan may lead to other homes.
There is a best run exactly if some run was measured.  It is feasible exactly if a run that was
measured meets the constraints, and it is marked feasible exactly if it meets them itself.  If no
run meets them, none has a smaller penalty than the best one. -/
theorem run_feasible_iff
    (hrun : (fresh session constraints maxSteps).run (some measure) scan = .ok after)
    (horder : TotallyOrdered ((successes measure after.calls).map constraints.penalty)) :
    (after.best = none ↔ successes measure after.calls = []) ∧
      (after.best.any (·.feasible) = true ↔
        ∃ run ∈ successes measure after.calls, constraints.satisfied run = true) ∧
      ∀ best, after.best = some best →
        best.feasible = constraints.satisfied best.measurement ∧
        best.measurement ∈ successes measure after.calls ∧
        ((∀ run ∈ successes measure after.calls, constraints.satisfied run = false) →
          ∀ run ∈ successes measure after.calls,
            less (constraints.penalty run) (constraints.penalty best.measurement) = false) := by
  obtain ⟨p, hreaches, -, rfl⟩ := exists_reaches_of_run hrun
  obtain ⟨trials, hremembers, -, hnearest⟩ := hreaches.exists_keepsNearest
  have hsame : ∀ run, run ∈ successful trials ↔ run ∈ successes measure p.search.calls :=
    fun run => hremembers.mem_successful
  have hbest := hnearest (horder.mono (List.map_subset _ fun run => (hsame run).mp))
  cases hsome : p.search.best with
  | none =>
    rw [hsome] at hbest
    have hnone : successes measure p.search.calls = [] := by
      refine List.eq_nil_iff_forall_not_mem.mpr fun run hmem => ?_
      have hmem' := (hsame run).mpr hmem
      rw [show successful trials = [] from hbest] at hmem'
      cases hmem'
    simp [hnone]
  | some best =>
    rw [hsome] at hbest
    obtain ⟨hfeasible, hmem, hnearest⟩ := hbest
    rw [hsame] at hmem
    refine ⟨?_, ?_, ?_⟩
    · simp [List.ne_nil_of_mem hmem]
    · show best.feasible = true ↔ _
      rw [hfeasible]
      constructor
      · intro hsatisfied
        exact ⟨best.measurement, hmem, hsatisfied⟩
      · rintro ⟨run, hmeasured, hsatisfied⟩
        have hnear := hnearest run ((hsame run).mpr hmeasured)
        exact RunConstraints.satisfied_of_isNearer_eq_false hnear hsatisfied
    · intro other hother
      obtain rfl := Option.some.inj hother
      refine ⟨hfeasible, hmem, fun hviolated run hmeasured => ?_⟩
      rw [← RunConstraints.isNearer_of_violated (hviolated run hmeasured) (hviolated _ hmem)]
      exact hnearest run ((hsame run).mpr hmeasured)

/-- Measures less throughput and less latency of every further run. -/
def cooling : Measure ℚ := fun asked _ =>
  some ⟨[⟨.ofRecords "" [⟨.throughput, 100 - 10 * asked.length, 0⟩,
    ⟨.latencyAverage, 30 - 10 * asked.length, 0⟩], Objectives.standard⟩]⟩

/-- A latency that the first two of these runs exceed. -/
def latencyLimit : RunConstraints ℚ :=
  [some [(Metric.latencyAverage.tag, { upper := some 15 })]]

/-- What a search comes to where only later runs meet the constraints. -/
lemma exists_run_cooling :
    ∃ after, (fresh ⟨batchGenerator, .empty⟩ latencyLimit 32).run (some cooling) .latestFirst =
        .ok after ∧
      (successes cooling after.calls).map latencyLimit.satisfied = [false, false, true, true] := by
  exact exists_ok_of_any (by decide +kernel)

/-- The best run meets the constraints where others with more throughput do not. -/
theorem run_feasible_of_cooling :
    ∃ after best,
      (fresh ⟨batchGenerator, .empty⟩ latencyLimit 32).run (some cooling) .latestFirst =
        .ok after ∧
      (successes cooling after.calls).map latencyLimit.satisfied = [false, false, true, true] ∧
      after.best = some best ∧ best.feasible = true ∧
      latencyLimit.satisfied best.measurement = true := by
  obtain ⟨after, hrun, hsatisfied⟩ := exists_run_cooling
  obtain ⟨-, hfeasible, hbest⟩ := run_feasible_iff hrun (totallyOrdered_rat _)
  have hmet : ∃ run ∈ successes cooling after.calls, latencyLimit.satisfied run = true :=
    List.mem_map.mp (by rw [hsatisfied]; decide)
  obtain ⟨best, hsome, hmarked⟩ := (Option.any_eq_true _ _).mp (hfeasible.mpr hmet)
  exact ⟨after, best, hrun, hsatisfied, hsome, hmarked, (hbest best hsome).1 ▸ hmarked⟩

end HillClimb

end ServingTuner
