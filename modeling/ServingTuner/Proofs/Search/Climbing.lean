import Mathlib
import ServingTuner.Proofs.Search.Accounts
import ServingTuner.Proofs.Search.Best

/-!
# Climbing

Where the ranking is a total preorder on the results of a search, the homes of the search climb:
each lies in the ball around the one before and ranks above it, so none is visited twice.  A search
that ends with moves left has nothing around its last home that ranks above it (`run_climbs`).
-/

namespace ServingTuner

namespace HillClimb

variable {α : Type} [Quantity α] {s t : HillClimb α} {a b c : Coordinate}

/-- Both coordinates are measured, and the result of the first ranks above that of the second. -/
def Above (s : HillClimb α) (a b : Coordinate) : Prop :=
  ∃ own other, (a, own) ∈ s.measured ∧ (b, other) ∈ s.measured ∧
    s.constraints.rank own other = .gt

/-- What ranks above another coordinate still does when more is measured. -/
lemma Above.mono (h : s.Above a b) (hmeasured : s.measured ⊆ t.measured)
    (hconstraints : t.constraints = s.constraints) : t.Above a b := by
  obtain ⟨own, other, hown, hother, hrank⟩ := h
  exact ⟨own, other, hmeasured hown, hmeasured hother, hconstraints ▸ hrank⟩

/-- What ranks above a coordinate ranks above all that this ranks above. -/
lemma Above.trans (hrank : s.constraints.IsPreorder s.measured.results)
    (hunique : s.measured.coordinates.Nodup) (hab : s.Above a b) (hbc : s.Above b c) :
    s.Above a c := by
  obtain ⟨x, y, hx, hy, hxy⟩ := hab
  obtain ⟨y', z, hy', hz, hyz⟩ := hbc
  obtain rfl : y = y' := Measured.result_eq_of_mem hunique hy hy'
  refine ⟨x, z, hx, hz, ?_⟩
  refine hrank.gt_of_gt_of_ge (Measured.mem_results hx) (Measured.mem_results hy)
    (Measured.mem_results hz) hxy ?_
  rw [hyz]
  decide

/-- No coordinate ranks above itself. -/
lemma Above.ne (hrank : s.constraints.IsPreorder s.measured.results)
    (hunique : s.measured.coordinates.Nodup) (h : s.Above a b) : a ≠ b := by
  rintro rfl
  obtain ⟨x, y, hx, hy, hxy⟩ := h
  obtain rfl : x = y := Measured.result_eq_of_mem hunique hx hy
  rw [hrank.rank_self (Measured.mem_results hx)] at hxy
  cases hxy

/-- Where the results rank as a preorder, the best coordinate around a home is the same for every
scan. -/
lemma best?_eq_of_isPreorder (hrank : s.constraints.IsPreorder s.measured.results)
    (hunique : s.measured.coordinates.Nodup) (scan : Scan α) (home : Coordinate) :
    s.best? scan home = (s.neighborhood home).best? s.constraints :=
  Neighborhood.best?_perm (n := s.neighborhood home)
    (hrank.mono (s.neighborhood home).results_subset) hunique (scan.perm s.steps s.measured)

/-- The best coordinate around a home is home itself or ranks above it, and nothing measured around
home ranks above the best one. -/
lemma best?_above {home : Coordinate} (hrank : s.constraints.IsPreorder s.measured.results)
    (hunique : s.measured.coordinates.Nodup) (hhome : s.measured.has home = true)
    (scan : Scan α) :
    ∃ best, s.best? scan home = some best ∧ (best = home ∨ s.Above best home) ∧
      ∀ c, (s.neighborhood home).ball.contains c = true → ¬ s.Above c best := by
  rw [best?_eq_of_isPreorder hrank hunique]
  obtain ⟨⟨_, kept⟩, hstart, ⟨best, result⟩, hfound, rfl, hbest, hover, hothers⟩ :=
    Neighborhood.best?_eq (n := s.neighborhood home) hrank hunique hhome
  obtain ⟨hkept, -⟩ := Neighborhood.mem_entries.mp hstart
  obtain ⟨hresult, -⟩ := Neighborhood.mem_entries.mp hfound
  refine ⟨best, hbest, ?_, ?_⟩
  · rcases hover with hsame | habove
    · exact Or.inl (Prod.mk.inj hsame).1
    · exact Or.inr ⟨result, kept, hresult, hkept, habove⟩
  · rintro c hc ⟨own, other, hown, hother, habove⟩
    obtain rfl : other = result := Measured.result_eq_of_mem hunique hother hresult
    exact hothers (c, own) (Neighborhood.mem_entries.mpr ⟨hown, hc⟩) habove

end HillClimb

namespace Ascent

open HillClimb

variable {α : Type} [Quantity α] {measure : Measure α} {scan : Scan α} {p q : Ascent α}

/-- The homes of a search up to now, the latest first: as many as there were moves, and one to start
from; all but the latest are surely measured, and each lies in the ball around the one before. -/
structure Walks (start : Coordinate) (p : Ascent α) : Prop where
  length : p.past.length = p.search.steps
  start : (p.home :: p.past).getLast? = some start
  measured : ∀ home ∈ p.past, p.search.measured.has home = true
  near : (p.home :: p.past).IsChain fun later earlier =>
    (p.search.neighborhood earlier).ball.contains later = true

/-- A step goes on with the walk. -/
lemma Walks.step {start : Coordinate} (hstep : Step measure scan p q) (h : Walks start p) :
    Walks start q := by
  cases hstep with
  | @measure home past s t c hwanted hmeasured =>
    obtain ⟨result, ht⟩ := measures_of_measureAt hmeasured
    refine ⟨h.length.trans ht.steps.symm, h.start, ?_, ?_⟩
    · intro earlier hearlier
      exact (has_of_measureAt hwanted hmeasured earlier).mpr (Or.inl (h.measured earlier hearlier))
    · simp only [ball_of_measureAt hmeasured]
      exact h.near
  | @move home best past s hwanted hbest hne hsteps =>
    obtain ⟨-, hcontains⟩ := contains_of_best? hwanted hbest
    refine ⟨congrArg (· + 1) h.length, ?_, ?_, ?_⟩
    · rw [List.getLast?_cons_cons]
      exact h.start
    · exact List.forall_mem_cons.mpr ⟨(wanted?_eq_none hwanted).1, h.measured⟩
    · exact List.isChain_cons_cons.mpr ⟨hcontains, h.near⟩

/-- If the results up to now rank as a preorder, then each home ranks above those before. -/
def Rises (p : Ascent α) : Prop :=
  p.search.constraints.IsPreorder p.search.measured.results →
    (p.home :: p.past).Pairwise p.search.Above

/-- A step keeps a search rising. -/
lemma Rises.step (hstep : Step measure scan p q) (hunique : p.search.measured.coordinates.Nodup)
    (h : p.Rises) : q.Rises := by
  cases hstep with
  | @measure home past s t c hwanted hmeasured =>
    intro hrank
    obtain ⟨result, ht⟩ := measures_of_measureAt hmeasured
    obtain ⟨result', hrecord⟩ := measured_of_wanted? hwanted hmeasured
    have hsub : s.measured ⊆ t.measured := by
      rw [hrecord]
      exact List.subset_append_left _ _
    have hrank' : s.constraints.IsPreorder s.measured.results := by
      rw [← ht.constraints]
      exact RunConstraints.IsPreorder.mono hrank (List.map_subset _ hsub)
    exact (h hrank').imp fun hab => hab.mono hsub ht.constraints
  | @move home best past s hwanted hbest hne hsteps =>
    intro hrank
    have hrank' : s.constraints.IsPreorder s.measured.results := hrank
    obtain ⟨best', hbest', hover, -⟩ :=
      best?_above hrank' hunique (wanted?_eq_none hwanted).1 scan
    obtain rfl : best = best' := Option.some.inj (hbest.symm.trans hbest')
    have habove : s.Above best home := hover.resolve_left hne
    have hpast := h hrank'
    refine List.pairwise_cons.mpr ⟨?_, hpast⟩
    intro earlier hearlier
    rcases List.mem_cons.mp hearlier with rfl | hearlier
    · exact habove
    · exact habove.trans hrank' hunique ((List.pairwise_cons.mp hpast).1 earlier hearlier)

end Ascent

/-! ### Searches that have not run yet -/

namespace HillClimb

variable {α : Type} [Quantity α] {measure : Measure α} {scan : Scan α} {session : Session}
  {constraints : RunConstraints α} {maxSteps : UInt32} {p : Ascent α} {after : HillClimb α}

/-- A search walks from the cursor of its session. -/
lemma Reaches.walks (h : (fresh session constraints maxSteps).Reaches measure scan p) :
    p.Walks session.generator.cursor := by
  refine h.induction ?_ fun p q _ hstep hp => hp.step hstep
  intro begun hgoes
  exact ⟨hgoes.steps.symm, rfl, by simp, List.isChain_singleton _⟩

/-- A search rises. -/
lemma Reaches.rises (h : (fresh session constraints maxSteps).Reaches measure scan p) :
    p.Rises := by
  refine h.induction ?_ fun p q hreaches hstep hp => hp.step hstep hreaches.sound.unique
  intro begun hgoes hrank
  exact List.pairwise_singleton _ _

/-- Take a search that has run to its end, with any scan, and whose results rank as a preorder.  Its
homes start at the cursor of the session; there is one more of them than moves, and all are
measured. Each lies in the ball around the one before, and each ranks above all before it, so none
comes twice. If a move was left, then nothing measured around the last home ranks above it, and
either enough of its neighborhood is measured or all its neighbors are. -/
theorem run_climbs (hrun : (fresh session constraints maxSteps).run (some measure) scan = .ok after)
    (hrank : constraints.IsPreorder after.measured.results) :
    let ball := fun home => Ball.mk home session.generator.space.radius
    ∃ p, (fresh session constraints maxSteps).Reaches measure scan p ∧ p.Halted scan ∧
      p.search = after ∧
      let homes := (p.home :: p.past).reverse
      homes.head? = some session.generator.cursor ∧ homes.length = after.steps + 1 ∧
      (∀ home ∈ homes, after.measured.has home = true) ∧
      homes.IsChain (fun earlier later => (ball earlier).contains later = true) ∧
      homes.Pairwise (fun earlier later => after.Above later earlier) ∧ homes.Nodup ∧
      (after.steps < maxSteps.toNat →
        (∀ c, (ball p.home).contains c = true → ¬ after.Above c p.home) ∧
        (session.generator.space.minMeasured.toNat ≤ (after.neighborhood p.home).measuredCount ∨
          ∀ c ∈ (ball p.home).neighbors, after.measured.has c = true)) := by
  intro ball
  rcases run_cases measure scan (fresh session constraints maxSteps) with
    ⟨p, hreaches, hhalted, hok⟩ | ⟨p, failure, -, -, hfailed⟩
  · obtain rfl : p.search = after := by
      rw [hrun] at hok
      cases hok
      rfl
    have hsound := hreaches.sound
    have hwalks := hreaches.walks
    rw [← hsound.ranks] at hrank
    have hrises := hreaches.rises hrank
    obtain ⟨hhome, hexplored⟩ := wanted?_eq_none hhalted.1
    have hball : ∀ home, (p.search.neighborhood home).ball = ball home := by
      intro home
      rw [neighborhood, hsound.walks]
    refine ⟨p, hreaches, hhalted, rfl, ?_, ?_, ?_, ?_, ?_, ?_, ?_⟩
    · rw [List.head?_reverse]
      exact hwalks.start
    · rw [List.length_reverse, List.length_cons, hwalks.length]
    · intro home hmem
      rcases List.mem_cons.mp (List.mem_reverse.mp hmem) with rfl | hmem
      · exact hhome
      · exact hwalks.measured home hmem
    · rw [List.isChain_reverse]
      exact hwalks.near.imp fun later earlier hnear => hball earlier ▸ hnear
    · exact List.pairwise_reverse.mpr hrises
    · exact List.nodup_reverse.mpr (hrises.imp fun habove => habove.ne hrank hsound.unique)
    · intro hleft
      obtain ⟨best, hbest, -, hothers⟩ := best?_above hrank hsound.unique hhome scan
      have hstays := hhalted.2.resolve_right (by rw [hsound.limit]; omega)
      obtain rfl : p.home = best := Option.some.inj (hstays.symm.trans hbest)
      rw [hball] at hothers hexplored
      refine ⟨hothers, hexplored.imp_left fun hexplored => ?_⟩
      rw [Neighborhood.isExplored, decide_eq_true_iff] at hexplored
      rwa [← hsound.walks]
  · rw [hrun] at hfailed
    cases hfailed

/-- Measures throughputs that rise until the third run and fall then. -/
def peaked : Measure ℚ := fun asked _ =>
  some ⟨[⟨.ofRecords "" [⟨.throughput, if asked.length ≤ 2 then asked.length + 1 else 1, 0⟩],
    Objectives.standard⟩]⟩

/-- A search for the batch size with the greatest throughput. -/
def peakSearch : HillClimb ℚ := fresh ⟨batchGenerator, .empty⟩ [none] 32

/-- What `peakSearch` comes to: it moves once, and its results rank as a preorder. -/
lemma exists_run_peakSearch :
    ∃ after, peakSearch.run (some peaked) .latestFirst = .ok after ∧ after.steps = 1 ∧
      RunConstraints.IsPreorder [none] after.measured.results := by
  exact exists_ok_of_any (by decide +kernel)

/-- A search with moves left climbs from its first home to the second one, which is the best
around. -/
theorem run_climbs_to_peak :
    ∃ p, peakSearch.Reaches peaked .latestFirst p ∧
      peakSearch.run (some peaked) .latestFirst = .ok p.search ∧
      p.search.steps < 32 ∧ (p.home :: p.past).length = 2 ∧
      ∀ c, (Ball.mk p.home 1).contains c = true → ¬ p.search.Above c p.home := by
  obtain ⟨after, hrun, hsteps, hrank⟩ := exists_run_peakSearch
  obtain ⟨p, hreaches, -, rfl, -, hlength, -, -, -, -, hpeak⟩ :=
    @run_climbs ℚ _ peaked .latestFirst ⟨batchGenerator, .empty⟩ [none] 32 after hrun hrank
  have hleft : p.search.steps < 32 := by omega
  rw [List.length_reverse, hsteps] at hlength
  exact ⟨p, hreaches, hrun, hleft, hlength, (hpeak hleft).1⟩

end HillClimb

end ServingTuner
