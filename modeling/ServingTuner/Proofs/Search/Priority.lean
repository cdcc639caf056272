import Mathlib
import ServingTuner.Proofs.Ranking.Nearness
import ServingTuner.Proofs.Search.Best

/-!
# What counts first around home

The best coordinate of a neighborhood depends on gains and on the order of the results where the
ranking is no preorder.  What it never gives up is how close a result is to the constraints: each
step of the pass keeps an entry that is at least as close as the two that it compares
(`Neighborhood.isPreference_isCloser`), whatever decided between them, a gain or the order of the
coordinates.  So a feasible run is found if there is one, else one of the smallest penalty, and home
if all runs failed.  The penalties have to be in order for this (`Neighborhood.best?_of_penalties`),
which doubles are if none of them is NaN (`Neighborhood.best?_of_doubles`).
-/

namespace ServingTuner

open Quantity

namespace Neighborhood

variable {α : Type} {n : Neighborhood α} {run : RunMeasurement α}

/-- The runs that were measured in a neighborhood; the others failed. -/
def runs (n : Neighborhood α) : List (RunMeasurement α) := n.entries.results.reduceOption

/-- A run was measured in a neighborhood if it is the result at some coordinate. -/
lemma mem_runs : run ∈ n.runs ↔ ∃ c, (c, some run) ∈ n.entries := by
  unfold runs Measured.results
  rw [List.reduceOption_mem_iff, List.mem_map]
  constructor
  · rintro ⟨entry, hentry, hresult⟩
    exact ⟨entry.1, hresult ▸ hentry⟩
  · rintro ⟨c, hentry⟩
    exact ⟨_, hentry, rfl⟩

/-- Without measured runs all results are failed ones. -/
lemma eq_none_of_runs_eq_nil (h : n.runs = []) : ∀ result ∈ n.entries.results, result = none := by
  intro result hresult
  cases result with
  | none => rfl
  | some run =>
    have hrun : run ∈ n.runs := List.reduceOption_mem_iff.mpr hresult
    rw [h] at hrun
    cases hrun

variable [Quantity α] {constraints : RunConstraints α}

/-- A pass over the entries never gives up one that is closer to the constraints: what replaces the
best entry so far does not rank below it, and what does not replace it does not rank above it. -/
lemma isPreference_isCloser (hunique : n.measured.coordinates.Nodup)
    (horder : TotallyOrdered (constraints.penalties n.entries.results)) :
    n.IsPreference constraints fun entry other =>
      constraints.isCloser other.2 entry.2 = false := by
  have hself : ∀ entry ∈ n.entries, constraints.isCloser entry.2 entry.2 = false := by
    intro entry hentry
    exact RunConstraints.isCloser_self horder (Measured.mem_results hentry)
  constructor
  · exact hself
  · intro entry hentry best hbest start hstart h h'
    exact RunConstraints.isCloser_trans horder (Measured.mem_results hentry)
      (Measured.mem_results hbest) (Measured.mem_results hstart) h h'
  · intro entry hentry best hbest _
    have hresult := Measured.mem_results hentry
    have hresult' := Measured.mem_results hbest
    rcases keepBest_eq_or hunique hentry hbest with ⟨hkeep, hbeats⟩ | ⟨hkeep, hsame | hnot⟩
    · refine ⟨entry, hentry, hkeep, ?_, hself entry hentry⟩
      exact RunConstraints.isCloser_of_rank_ne_lt horder hresult hresult'
        (leads_of_beats hbeats).rank_ne_lt
    · rw [hsame]
      exact ⟨best, hbest, hsame ▸ hkeep, hself best hbest, hself best hbest⟩
    · refine ⟨best, hbest, hkeep, hself best hbest, ?_⟩
      apply RunConstraints.isCloser_of_rank_ne_gt horder hresult hresult'
      intro habove
      simp [beats, habove] at hnot

/-- Where a run was measured the best coordinate has one, and none is nearer to the constraints. -/
lemma exists_nearest (hunique : n.measured.coordinates.Nodup)
    (horder : TotallyOrdered (constraints.penalties n.entries.results)) (hrun : run ∈ n.runs) :
    ∃ c own, n.best? constraints = some c ∧ (c, some own) ∈ n.entries ∧
      ∀ other ∈ n.runs, constraints.isNearer other own = false := by
  obtain ⟨c, hc⟩ := mem_runs.mp hrun
  obtain ⟨⟨best, result⟩, hfound, hbest, hcloser⟩ :=
    (isPreference_isCloser hunique horder).exists_best? hunique (List.ne_nil_of_mem hc)
  cases result with
  | none => cases hcloser _ hc
  | some own =>
    refine ⟨best, own, hbest, hfound, fun other hother => ?_⟩
    obtain ⟨c', hc'⟩ := mem_runs.mp hother
    exact hcloser _ hc'

/-- Where all runs failed nothing takes the place of home. -/
lemma best?_of_runs_eq_nil (hunique : n.measured.coordinates.Nodup) (hruns : n.runs = [])
    (hhome : n.measured.has n.home = true) : n.best? constraints = some n.home := by
  have hfailed := eq_none_of_runs_eq_nil hruns
  obtain ⟨start, hstart, hsame, -⟩ := exists_homeEntry hhome
  obtain ⟨found, hfound, hbest, hleads⟩ :=
    exists_leads (RunConstraints.isPreorder_of_failed hfailed) hunique (List.ne_nil_of_mem hstart)
  rcases (hleads start hstart).eq_home_or_gt hsame with hfirst | habove
  · rw [hbest, hfirst]
  · rw [hfailed _ (Measured.mem_results hfound), hfailed _ (Measured.mem_results hstart)] at habove
    cases habove

/-- Let the penalties of the runs that were measured in a neighborhood be totally ordered; nothing
is asked of their gains, nor of the order in which the results are stored.  The best coordinate has
a run that meets the constraints if there is one.  If no run meets them but some was measured, then
the best coordinate has a measured one, and none has a smaller penalty.  And if all runs failed it
is home. -/
theorem best?_of_penalties (hunique : n.measured.coordinates.Nodup)
    (horder : TotallyOrdered (n.runs.map constraints.penalty)) :
    ((∃ run ∈ n.runs, constraints.satisfied run = true) →
      ∃ c run, n.best? constraints = some c ∧ (c, some run) ∈ n.entries ∧
        constraints.satisfied run = true) ∧
    ((∀ run ∈ n.runs, constraints.satisfied run = false) → n.runs ≠ [] →
      ∃ c run, n.best? constraints = some c ∧ (c, some run) ∈ n.entries ∧
        ∀ other ∈ n.runs, less (constraints.penalty other) (constraints.penalty run) = false) ∧
    (n.runs = [] → n.measured.has n.home = true → n.best? constraints = some n.home) := by
  refine ⟨?_, ?_, best?_of_runs_eq_nil hunique⟩
  · rintro ⟨run, hrun, hsatisfied⟩
    obtain ⟨c, own, hbest, hown, hnearest⟩ := exists_nearest hunique horder hrun
    exact ⟨c, own, hbest, hown,
      RunConstraints.satisfied_of_isNearer_eq_false (hnearest run hrun) hsatisfied⟩
  · intro hviolated hruns
    obtain ⟨run, hrun⟩ := List.exists_mem_of_ne_nil _ hruns
    obtain ⟨c, own, hbest, hown, hnearest⟩ := exists_nearest hunique horder hrun
    refine ⟨c, own, hbest, hown, fun other hother => ?_⟩
    rw [← RunConstraints.isNearer_of_violated (hviolated other hother)
      (hviolated own (mem_runs.mpr ⟨c, hown⟩))]
    exact hnearest other hother

/-- Take a search with doubles, and results around its home in any order.  If no penalty is NaN, then
the best coordinate has a run that meets the constraints if there is one, else one of the smallest
penalty if any was measured, and else it is home. -/
theorem best?_of_doubles {n : Neighborhood Float} {constraints : RunConstraints Float}
    {order : Measured Float} (hunique : n.measured.coordinates.Nodup)
    (horder : order.Perm n.measured)
    (hnan : ∀ run ∈ n.runs, (constraints.penalty run).isNaN = false) :
    ((∃ run ∈ n.runs, constraints.satisfied run = true) →
      ∃ c run, { n with measured := order }.best? constraints = some c ∧
        (c, some run) ∈ n.entries ∧ constraints.satisfied run = true) ∧
    ((∀ run ∈ n.runs, constraints.satisfied run = false) → n.runs ≠ [] →
      ∃ c run, { n with measured := order }.best? constraints = some c ∧
        (c, some run) ∈ n.entries ∧
        ∀ other ∈ n.runs, constraints.penalty run ≤ constraints.penalty other) ∧
    (n.runs = [] → n.measured.has n.home = true →
      { n with measured := order }.best? constraints = some n.home) := by
  let reordered : Neighborhood Float := { n with measured := order }
  have hunique' := Measured.nodup_of_perm horder hunique
  have hentries : reordered.entries.Perm n.entries := entries_perm horder
  have hruns : reordered.runs.Perm n.runs := (hentries.map _).filterMap _
  have hnone : reordered.runs = [] ↔ n.runs = [] := by
    rw [← List.length_eq_zero_iff, hruns.length_eq, List.length_eq_zero_iff]
  have hpenalties : TotallyOrdered (reordered.runs.map constraints.penalty) := by
    apply totallyOrdered_double
    intro x hx
    obtain ⟨run, hrun, rfl⟩ := List.mem_map.mp hx
    exact hnan run (hruns.mem_iff.mp hrun)
  obtain ⟨hfeasible, hsmallest, hfailed⟩ := best?_of_penalties (n := reordered) hunique' hpenalties
  simp only [hruns.mem_iff, hentries.mem_iff, ne_eq, hnone] at hfeasible hsmallest hfailed
  refine ⟨hfeasible, fun hviolated hsome => ?_, fun hnothing hhome => hfailed hnothing ?_⟩
  · obtain ⟨c, run, hbest, hrun, hleast⟩ := hsmallest hviolated hsome
    refine ⟨c, run, hbest, hrun, fun other hother => ?_⟩
    exact double_le_of_less_eq_false (hnan run (mem_runs.mpr ⟨c, hrun⟩)) (hnan other hother)
      (hleast other hother)
  · rw [Measured.has_iff] at hhome ⊢
    exact (horder.map _).mem_iff.mpr hhome

/-- A run with a throughput and a latency. -/
def timed (throughput latency : Float) : RunMeasurement Float :=
  ⟨[⟨.ofRecords "" [⟨.throughput, throughput, 0.0⟩, ⟨.latencyAverage, latency, 0.0⟩],
    Objectives.standard⟩]⟩

/-- A limit of the latency. -/
def latencyAtMost (limit : Float) : RunConstraints Float :=
  [some [(Metric.latencyAverage.tag, { upper := some limit })]]

/-- Home is slow but has the most throughput, and one of its neighbors failed. -/
def timings : Neighborhood Float where
  measured := [(⟨[1]⟩, some (timed 100.0 30.0)), (⟨[2]⟩, none), (⟨[0]⟩, some (timed 10.0 12.5)),
    (⟨[3]⟩, some (timed 1.0 20.0))]
  ball := ⟨⟨[1]⟩, 2⟩
  minMeasured := 3

/-- A limit on the latency counts more than throughput, whether it is met or missed. -/
theorem best?_of_timings :
    (∃ c run, { timings with measured := timings.measured.reverse }.best? (latencyAtMost 15.0) =
        some c ∧ (c, some run) ∈ timings.entries ∧
        (latencyAtMost 15.0).satisfied run = true) ∧
      ∃ c run, { timings with measured := timings.measured.reverse }.best? (latencyAtMost 5.0) =
        some c ∧ (c, some run) ∈ timings.entries ∧
        ∀ other ∈ timings.runs,
          (latencyAtMost 5.0).penalty run ≤ (latencyAtMost 5.0).penalty other := by
  have hunique : timings.measured.coordinates.Nodup := by decide
  have horder := List.reverse_perm timings.measured
  constructor
  · exact (best?_of_doubles hunique horder (by decide +kernel)).1 (by decide +kernel)
  · exact (best?_of_doubles hunique horder (by decide +kernel)).2.1 (by decide +kernel)
      (List.ne_nil_of_length_pos (by decide +kernel))

end Neighborhood

end ServingTuner
