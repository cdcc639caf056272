import Mathlib
import ServingTuner.Proofs.Generator.Twins
import ServingTuner.Proofs.Search.Climbing
import ServingTuner.Proofs.Search.Ending
import ServingTuner.Proofs.Search.Trials

/-!
# Searches over different registries

Two searches that differ in their registries alone give their variants different names, and a search
knows a run by a text that is full of names.  Yet it goes the same way with either registry, as long
as the measure function does not go by names (`Measure.ReadsOnly`).

The relation that every step keeps is `HillClimb.Agrees`: whatever names a variant is a twin of its
counterpart, and all the rest is equal.  One step is followed by one step of the other search
(`Ascent.Agrees.step`), because a text was met before in the one search exactly if the text of its
twin was in the other.  Where the one search halts the other one does, so both come to the same
(`run_same_in_registries`).  The two may even look through their records in different orders, if the
ranking is a preorder.
-/

namespace ServingTuner

/-- The measure function goes by the readings of runs alone: of the one that it is asked for, and of
those that it was asked for before. -/
def Measure.ReadsOnly {α : Type} (measure : Measure α) : Prop :=
  ∀ asked asked' config config',
    asked.map RunConfig.reading = asked'.map RunConfig.reading → config.reading = config'.reading →
      measure asked config = measure asked' config'

/-- What is known of the best run besides its configuration. -/
def BestRun.merits {α : Type} (best : BestRun α) : Option Coordinate × RunMeasurement α × Bool :=
  (best.coordinate, best.measurement, best.feasible)

/-- Of lists that are related element by element, elements are found that are related, if related
elements are looked for alike. -/
lemma rel_find? {β γ : Type} {R : β → γ → Prop} {p : β → Bool} {q : γ → Bool} {xs : List β}
    {ys : List γ} (h : List.Forall₂ R xs ys) (hpq : ∀ x y, R x y → p x = q y) :
    Option.Rel R (xs.find? p) (ys.find? q) := by
  induction h with
  | nil => exact .none
  | @cons x y xs ys hxy _ ih =>
    rw [List.find?_cons, List.find?_cons, hpq x y hxy]
    cases q y with
    | true => exact .some hxy
    | false => exact ih

namespace HillClimb

variable {α : Type} {measure : Measure α} {g : Generator} {s t s' t' : HillClimb α}
  {config config' : RunConfig} {c home : Coordinate}

/-! ### Searches that agree -/

/-- Two entries of remembered results have the texts of twins, and the same result. -/
def AreTwinEntries (g : Generator) (names names' : VariantNames)
    (entry entry' : String × Option (RunMeasurement α)) : Prop :=
  ∃ config config', g.AreTwins names names' config config' ∧ entry.1 = config.text ∧
    entry'.1 = config'.text ∧ entry.2 = entry'.2

/-- Two searches agree over a generator if they differ in names only: the runs that they handed over
and those whose results they remember are twins, and all the rest is equal. -/
structure Agrees (g : Generator) (s t : HillClimb α) : Prop where
  alike : g.Alike s.generator
  assigned : VariantNames.empty.Assigned false s.names
  assigned' : VariantNames.empty.Assigned false t.names
  generator : s.generator = t.generator
  constraints : s.constraints = t.constraints
  maxSteps : s.maxSteps = t.maxSteps
  measured : s.measured = t.measured
  measurements : s.measurements = t.measurements
  steps : s.steps = t.steps
  calls : List.Forall₂ (g.AreTwins s.names t.names) s.calls t.calls
  results : List.Forall₂ (AreTwinEntries g s.names t.names) s.results t.results
  best : s.best.map BestRun.merits = t.best.map BestRun.merits

/-- Searches that agree see the same neighborhoods. -/
lemma Agrees.neighborhood_eq (h : Agrees g s t) (home : Coordinate) :
    s.neighborhood home = t.neighborhood home := by
  rw [neighborhood, neighborhood, h.measured, h.generator]

/-- Searches that agree want the same. -/
lemma Agrees.wanted?_eq (h : Agrees g s t) (home : Coordinate) :
    s.wanted? home = t.wanted? home := by
  rw [wanted?, wanted?, h.neighborhood_eq, h.measured]

/-- Searches that agree still do after others were named, if their generators stay equal. -/
lemma Agrees.withSession (h : Agrees g s t) (later later' : Session)
    (halike : g.Alike later.generator) (hgenerator : later.generator = later'.generator)
    (hnames : s.names.Assigned false later.names) (hnames' : t.names.Assigned false later'.names) :
    Agrees g (s.withSession later) (t.withSession later') := by
  refine ⟨halike, h.assigned.trans hnames, h.assigned'.trans hnames', hgenerator, h.constraints,
    h.maxSteps, h.measured, h.measurements, h.steps, ?_, ?_, h.best⟩
  · exact h.calls.imp fun _ _ htwins => htwins.mono hnames hnames'
  · refine h.results.imp ?_
    rintro entry entry' ⟨config, config', htwins, hsame⟩
    exact ⟨config, config', htwins.mono hnames hnames', hsame⟩

/-! ### Trying twins -/

/-- Searches that agree find the same result for twins, and agree then. -/
lemma Agrees.result (hg : g.IsComplete) (hmeasure : measure.ReadsOnly) (h : Agrees g s t)
    (htwins : g.AreTwins s.names t.names config config') :
    (s.result measure config).1 = (t.result measure config').1 ∧
      Agrees g (s.result measure config).2 (t.result measure config').2 := by
  have hfound : Option.Rel (AreTwinEntries g s.names t.names)
      (s.results.find? (·.1 == config.text)) (t.results.find? (·.1 == config'.text)) := by
    refine rel_find? h.results ?_
    rintro entry entry' ⟨own, own', hown, htext, htext', -⟩
    rw [htext, htext', Bool.eq_iff_iff, beq_iff_eq, beq_iff_eq]
    exact hown.text_iff hg h.assigned h.assigned' htwins
  rw [HillClimb.result, HillClimb.result]
  generalize s.results.find? (·.1 == config.text) = found at hfound ⊢
  generalize t.results.find? (·.1 == config'.text) = found' at hfound ⊢
  cases hfound with
  | some hentry =>
    obtain ⟨-, -, -, -, -, hresult⟩ := hentry
    exact ⟨hresult, h⟩
  | none =>
    have hcalls : s.calls.map RunConfig.reading = t.calls.map RunConfig.reading := by
      rw [← List.forall₂_eq_eq_eq]
      exact List.rel_map (fun _ _ hasked => hasked.reading_eq hg h.assigned h.assigned') h.calls
    have hanswer : measure s.calls config = measure t.calls config' :=
      hmeasure _ _ _ _ hcalls (htwins.reading_eq hg h.assigned h.assigned')
    refine ⟨hanswer, { h with measurements := ?_, calls := ?_, results := ?_ }⟩
    · exact congrArg (· + 1) h.measurements
    · exact List.rel_append h.calls (.cons htwins .nil)
    · exact List.rel_append h.results (.cons ⟨config, config', htwins, rfl, rfl, hanswer⟩ .nil)

variable [Quantity α]

/-- Searches that agree still do when they consider twins with the same result. -/
lemma Agrees.consider (h : Agrees g s t) (config config' : RunConfig)
    (result : Option (RunMeasurement α)) (coordinate : Option Coordinate) :
    Agrees g (s.consider config result coordinate) (t.consider config' result coordinate) := by
  cases result with
  | none => exact h
  | some measurement =>
    have hbest := h.best
    cases hs : s.best with
    | none =>
      cases ht : t.best with
      | none =>
        simp only [HillClimb.consider, hs, ht, ← h.constraints, if_true]
        exact { h with constraints := rfl, best := rfl }
      | some best' =>
        rw [hs, ht] at hbest
        cases hbest
    | some best =>
      cases ht : t.best with
      | none =>
        rw [hs, ht] at hbest
        cases hbest
      | some best' =>
        rw [hs, ht] at hbest
        have hmeasurement : best.measurement = best'.measurement :=
          congrArg (·.2.1) (Option.some.inj hbest)
        simp only [HillClimb.consider, hs, ht, ← h.constraints, hmeasurement]
        split_ifs
        · exact { h with constraints := rfl, best := rfl }
        · exact h

/-- Searches that agree get the same result when they try twins, and agree then. -/
lemma Agrees.attempt (hg : g.IsComplete) (hmeasure : measure.ReadsOnly) (h : Agrees g s t)
    (htwins : g.AreTwins s.names t.names config config') (coordinate : Option Coordinate) :
    (s.attempt measure config coordinate).1 = (t.attempt measure config' coordinate).1 ∧
      Agrees g (s.attempt measure config coordinate).2
        (t.attempt measure config' coordinate).2 := by
  obtain ⟨hresult, hagrees⟩ := h.result hg hmeasure htwins
  refine ⟨hresult, ?_⟩
  rw [HillClimb.attempt, HillClimb.attempt, hresult]
  exact hagrees.consider config config' _ coordinate

/-! ### Measuring -/

/-- Searches that agree still do when both measure a coordinate. -/
lemma Agrees.measureAt (hg : g.IsComplete) (hmeasure : measure.ReadsOnly) (h : Agrees g s t)
    (hphase : s.generator.phase = .stepping) (hs : s.measureAt measure c = .ok s')
    (ht : t.measureAt measure c = .ok t') : Agrees g s' t' := by
  let moved := (s.session.call (.moveTo c)).2
  let moved' := (t.session.call (.moveTo c)).2
  have hgenerator : moved.generator = moved'.generator := by
    rw [show moved = _ from congrArg Prod.snd (Session.call_moveTo (size_of_measureAt hs)),
      show moved' = _ from congrArg Prod.snd (Session.call_moveTo (size_of_measureAt ht))]
    show ({ s.generator with cursor := c } : Generator) = { t.generator with cursor := c }
    rw [h.generator]
  have halike : g.Alike moved.generator := h.alike.trans (s.session.alike_call _)
  have hassigns : ∀ call ∈ [SessionCall.moveTo c, .configAt c], call.OnlyAssigns := by
    simp [SessionCall.OnlyAssigns]
  have hsession : Agrees g (s.withSession (moved.call (.configAt c)).2)
      (t.withSession (moved'.call (.configAt c)).2) :=
    h.withSession _ _ halike hgenerator (s.session.run_assigned hassigns)
      (t.session.run_assigned hassigns)
  obtain ⟨-, config, hconfig, result, u, hattempt, rfl⟩ := measureAt_eq_ok_of_stepping hphase hs
  obtain ⟨-, config', hconfig', result', u', hattempt', rfl⟩ :=
    measureAt_eq_ok_of_stepping (h.generator ▸ hphase) ht
  have hsize : c.size = g.space.dimensions.slots.length := by
    rw [h.alike.space]
    exact size_of_measureAt hs
  have htwins := Generator.AreTwins.of_configAt hg halike (hgenerator ▸ halike) hsize hconfig
    hconfig'
  obtain ⟨hresult, htried⟩ := hsession.attempt hg hmeasure htwins (some c)
  rw [← hattempt, ← hattempt'] at hresult htried
  refine { htried with measured := ?_ }
  show u.measured.set c result = u'.measured.set c result'
  rw [show u.measured = u'.measured from htried.measured, show result = result' from hresult]

/-- Searches that agree begin alike. -/
lemma Agrees.begin (hg : g.IsComplete) (hmeasure : measure.ReadsOnly) (h : Agrees g s t)
    (hs : s.begin measure = .ok s') (ht : t.begin measure = .ok t') : Agrees g s' t' := by
  rcases begin_eq_ok hs with ⟨hphase, rfl⟩ | ⟨hphase, config, hconfig, rfl⟩
  · rcases begin_eq_ok ht with ⟨-, rfl⟩ | ⟨hphase', -⟩
    · exact h
    · rw [← h.generator, hphase] at hphase'
      cases hphase'
  · rcases begin_eq_ok ht with ⟨hphase', -⟩ | ⟨-, config', hconfig', rfl⟩
    · rw [← h.generator, hphase] at hphase'
      cases hphase'
    · have halike' : g.Alike t.generator := by
        rw [← h.generator]
        exact h.alike
      have htwins : g.AreTwins s.names t.names config config' :=
        .of_standard (s := s.session) (t := t.session) h.alike halike' h.assigned h.assigned'
          hconfig hconfig'
      have hsession := h.withSession ⟨{ s.generator with phase := .stepping }, s.names⟩
        ⟨{ t.generator with phase := .stepping }, t.names⟩ (h.alike.trans ⟨rfl, rfl, rfl⟩)
        (by rw [h.generator]) (.refl false _) (.refl false _)
      exact (hsession.attempt hg hmeasure htwins none).2

end HillClimb

/-! ### Steps -/

namespace HillClimb

variable {α : Type} [Quantity α] {g : Generator} {s t : HillClimb α}

/-- Searches that agree find the same coordinates to be the best. -/
lemma Agrees.best?_eq (h : Agrees g s t) (scan : Scan α) (home : Coordinate) :
    s.best? scan home = t.best? scan home := by
  rw [best?, best?, h.neighborhood_eq, h.measured, h.steps, h.constraints]

end HillClimb

namespace Ascent

open HillClimb

variable {α : Type} {measure : Measure α} {scan scan' : Scan α} {g : Generator} {p q p' : Ascent α}

/-- Two searches on their way agree: they are at the same home, past the default configuration, and
differ in names only. -/
structure Agrees (g : Generator) (p q : Ascent α) : Prop where
  home : p.home = q.home
  phase : p.search.generator.phase = .stepping
  search : p.search.Agrees g q.search

variable [Quantity α]

/-- The two scans find the same coordinate to be the best around home. -/
def SameBest (scan scan' : Scan α) (p : Ascent α) : Prop :=
  p.search.best? scan p.home = p.search.best? scan' p.home

/-- A step of a search is followed by one of a search that agrees, and they agree then. -/
lemma Agrees.step (hg : g.IsComplete) (hmeasure : measure.ReadsOnly) (h : Agrees g p q)
    (hscan : p.SameBest scan scan') (hsized : q.Sized) (hroom : q.HasRoom)
    (hstep : Step measure scan p p') : ∃ q', Step measure scan' q q' ∧ Agrees g p' q' := by
  obtain ⟨home, past, t⟩ := q
  obtain ⟨rfl, hphase, hsearch⟩ := h
  cases hstep with
  | @measure home past' s s' c hwanted hmeasured =>
    have hwanted' : t.wanted? home = some c := by rw [← hwanted, hsearch.wanted?_eq]
    obtain ⟨t', hmeasured'⟩ := exists_measureAt measure (hsized.size_of_wanted? hwanted')
      (hroom c hwanted')
    refine ⟨⟨home, past, t'⟩, .measure hwanted' hmeasured', rfl, ?_, ?_⟩
    · show s'.generator.phase = .stepping
      rw [generator_of_measureAt hmeasured]
    · exact hsearch.measureAt hg hmeasure hphase hmeasured hmeasured'
  | @move home best past' s hwanted hbest hne hsteps =>
    have hwanted' : t.wanted? home = none := by rw [← hwanted, hsearch.wanted?_eq]
    have hbest' : t.best? scan' home = some best := by
      rw [← hsearch.best?_eq, ← hbest]
      exact hscan.symm
    have hsteps' : t.steps < t.maxSteps.toNat := by
      rw [← hsearch.steps, ← hsearch.maxSteps]
      exact hsteps
    refine ⟨_, .move hwanted' hbest' hne hsteps', rfl, hphase, ?_⟩
    exact { hsearch with steps := congrArg (· + 1) hsearch.steps }

/-- Where a search has halted, one that agrees has halted. -/
lemma Agrees.halted (h : Agrees g p q) (hscan : p.SameBest scan scan') (hp : p.Halted scan) :
    q.Halted scan' := by
  obtain ⟨hhome, -, hsearch⟩ := h
  obtain ⟨hwanted, hend⟩ := hp
  rw [hhome, hsearch.wanted?_eq] at hwanted
  rw [hscan, hhome, hsearch.best?_eq, hsearch.maxSteps, hsearch.steps] at hend
  exact ⟨hwanted, hend⟩

end Ascent

namespace HillClimb

variable {α : Type} [Quantity α] {measure : Measure α} {scan scan' : Scan α} {g : Generator}
  {s t : HillClimb α}

/-- Whatever a search comes to, a search that agrees comes to what agrees with it, if it has room on
its way. -/
lemma Agrees.exists_reaches (hg : g.IsComplete) (hmeasure : measure.ReadsOnly) (h : Agrees g s t)
    (hs : ∀ p, s.Reaches measure scan p → p.SameBest scan scan')
    (ht : ∀ q, t.Reaches measure scan' q → q.Sized ∧ q.HasRoom) {p : Ascent α}
    (hp : s.Reaches measure scan p) : ∃ q, t.Reaches measure scan' q ∧ p.Agrees g q := by
  refine hp.induction_of_begin (P := fun p => ∃ q, t.Reaches measure scan' q ∧ p.Agrees g q) ?_ ?_
  · intro begun hbegun
    obtain ⟨begun', hbegun', -⟩ := exists_begin measure t
    have hagrees := h.begin hg hmeasure hbegun hbegun'
    refine ⟨⟨begun'.generator.cursor, [], begun'⟩, ⟨begun', hbegun', .refl⟩, ?_, ?_, hagrees⟩
    · exact congrArg Generator.cursor hagrees.generator
    · exact congrArg (·.generator.phase) (goesOn_of_begin hbegun).session
  · rintro p p' hreaches hstep ⟨q, ⟨begun, hbegun, hsteps⟩, hagrees⟩
    obtain ⟨hsized, hroom⟩ := ht q ⟨begun, hbegun, hsteps⟩
    obtain ⟨q', hstep', hagrees'⟩ :=
      hagrees.step hg hmeasure (hs p hreaches) hsized hroom hstep
    exact ⟨q', ⟨begun, hbegun, hsteps.tail hstep'⟩, hagrees'⟩

/-- If the results of a search rank as a preorder, then another scan finds the same coordinates to
be the best, wherever the search comes. -/
lemma Reaches.sameBest {session : Session} {constraints : RunConstraints α} {maxSteps : UInt32}
    {p q : Ascent α} (h : (fresh session constraints maxSteps).Reaches measure scan p)
    (hq : (fresh session constraints maxSteps).Reaches measure scan q) (hhalted : q.Halted scan)
    (hrank : constraints.IsPreorder q.search.measured.results) (scan' : Scan α) :
    p.SameBest scan scan' := by
  have hsteps := h.steps_to_stuck hq fun r => hhalted.not_step
  have hsub := List.map_subset (·.2) (Ascent.measured_subset_of_steps hsteps)
  have hsound := h.sound
  have hrank' : p.search.constraints.IsPreorder p.search.measured.results := by
    rw [hsound.ranks]
    exact hrank.mono hsub
  exact (best?_eq_of_isPreorder hrank' hsound.unique scan p.home).trans
    (best?_eq_of_isPreorder hrank' hsound.unique scan' p.home).symm

/-- Take two sessions over one new generator over models that were built, each with a registry of
its own in which names were only assigned, and any calls on them that adopt no name and do not clear
the registry, after which the generators are equal.  The pasts of the registries may differ in any
way.

A search over either session with the same constraints and the same allowed moves, and with a
measure function that goes by the readings of runs alone, goes the same way, however runs are
ranked.  If the results rank as a preorder, it does so even where the two look through their records
in different orders.  Both measure the same coordinates in the same order with the same results,
hand over runs of the same readings, and count as many measurements and as many moves.  The best run
is at the same coordinate, with the same measurement, and it is feasible for both or for neither. -/
theorem run_same_in_registries {space : SearchSpace} {bounds : Bounds} {models : List ServedModel}
    {registry registry' : VariantNames} {g : Generator}
    (hg : Generator.create space bounds models (some registry) = .ok g)
    (hmodels : ∀ model ∈ models, model.IsBuilt)
    (hregistry : VariantNames.empty.Assigned false registry)
    (hregistry' : VariantNames.empty.Assigned false registry') (calls calls' : List SessionCall)
    (hcalls : ∀ c ∈ calls, c.OnlyAssigns) (hcalls' : ∀ c ∈ calls', c.OnlyAssigns)
    (hgenerator : ((Session.mk g registry).run calls).generator =
      ((Session.mk g registry').run calls').generator)
    (constraints : RunConstraints α) (maxSteps : UInt32) (hmeasure : measure.ReadsOnly)
    (hscan : scan = scan' ∨
      ∀ after, (fresh ((Session.mk g registry).run calls) constraints maxSteps).run
        (some measure) scan = .ok after → constraints.IsPreorder after.measured.results)
    (hroom : ∀ p, (fresh ((Session.mk g registry).run calls) constraints maxSteps).Reaches
      measure scan p → p.HasRoom)
    (hroom' : ∀ p, (fresh ((Session.mk g registry').run calls') constraints maxSteps).Reaches
      measure scan' p → p.HasRoom) :
    ∃ after after',
      (fresh ((Session.mk g registry).run calls) constraints maxSteps).run (some measure) scan =
        .ok after ∧
      (fresh ((Session.mk g registry').run calls') constraints maxSteps).run (some measure) scan' =
        .ok after' ∧
      after.measured = after'.measured ∧
      after.calls.map RunConfig.reading = after'.calls.map RunConfig.reading ∧
      after.measurements = after'.measurements ∧ after.steps = after'.steps ∧
      after.best.map BestRun.merits = after'.best.map BestRun.merits := by
  let session := (Session.mk g registry).run calls
  let session' := (Session.mk g registry').run calls'
  have hcomplete := Generator.isComplete_of_create hg hmodels
  have hg' : Generator.create space bounds models (some registry') = .ok g := hg
  have hagrees : Agrees g (fresh session constraints maxSteps)
      (fresh session' constraints maxSteps) :=
    ⟨Session.alike_run ⟨g, registry⟩ calls,
      hregistry.trans ((Session.mk g registry).run_assigned hcalls),
      hregistry'.trans ((Session.mk g registry').run_assigned hcalls'), hgenerator, rfl, rfl, rfl,
      rfl, rfl, .nil, .nil, rfl⟩
  rcases run_cases measure scan (fresh session constraints maxSteps) with
    ⟨p, hreaches, hhalted, hrun⟩ | ⟨p, failure, hreaches, hblocked, -⟩
  · have hsame : ∀ q, (fresh session constraints maxSteps).Reaches measure scan q →
        q.SameBest scan scan' := by
      intro q hq
      rcases hscan with rfl | hrank
      · rfl
      · exact hq.sameBest hreaches hhalted (hrank p.search hrun) scan'
    obtain ⟨q, hreaches', hpq⟩ := hagrees.exists_reaches hcomplete hmeasure hsame
      (fun q hq => ⟨hq.sized_of_create hg', hroom' q hq⟩) hreaches
    have hsearch := hpq.search
    refine ⟨p.search, q.search, hrun, hreaches'.run_eq (hpq.halted (hsame p hreaches) hhalted),
      hsearch.measured, ?_, hsearch.measurements, hsearch.steps, hsearch.best⟩
    rw [← List.forall₂_eq_eq_eq]
    exact List.rel_map (fun _ _ htwins =>
      htwins.reading_eq hcomplete hsearch.assigned hsearch.assigned') hsearch.calls
  · exact absurd hblocked ((hreaches.sized_of_create hg).not_blocked (hroom p hreaches) failure)

/-- Measures the concurrencies of a run as throughputs, which stop rising at 64. -/
def saturating : Measure ℚ := fun _ config =>
  some (RunConstraints.throughputs (config.reading.decisions.map fun decision =>
    (min decision.concurrency 64 : ℤ)))

/-- What is measured are readings. -/
lemma readsOnly_saturating : saturating.ReadsOnly := by
  intro asked asked' config config' _ hreading
  unfold saturating
  rw [hreading]

/-- A registry that has named a variant of the stage of `pipeline` before. -/
def usedNames : VariantNames := (VariantNames.empty.assign "bert" (.obj []) false).2

/-- The search over `pipeline` with names that start from 0 comes to results that rank as a
preorder. -/
lemma exists_run_pipeline :
    ∃ after,
      (fresh ⟨Session.pipelineGenerator, .empty⟩ [none] 4).run (some saturating) = .ok after ∧
      RunConstraints.IsPreorder [none] after.measured.results := by
  exact exists_ok_of_any (by decide +kernel)

/-- The search over `pipeline` never runs out of names where each entity has at most one to begin
with. -/
lemma Reaches.hasRoom_of_pipeline {names : VariantNames} {scan : Scan ℚ} {p : Ascent ℚ}
    (hnames : ∀ entity, (names.entity entity).size ≤ 1)
    (h : (fresh ⟨Session.pipelineGenerator, names⟩ [none] 4).Reaches saturating scan p) :
    p.HasRoom := by
  refine h.hasRoom ?_ ?_
  · intro slot hslot
    have hzero : slot = 0 := by simpa [Session.pipelineGenerator] using hslot
    rw [hzero]
    show 0 + 5 * 3 ≤ 2 ^ 32 - 1
    decide
  · intro entity
    have hlimit : 1 + 5 * 3 * 3 < UInt64.size := by decide
    exact lt_of_le_of_lt (Nat.add_le_add_right (hnames entity) _) hlimit

/-- An ensemble is searched in the same way with names that start from 0 and with those that start
from 1, also if the latter search looks at the latest coordinates first. -/
theorem run_same_in_registries_of_pipeline :
    ∃ after after',
      (fresh ⟨Session.pipelineGenerator, .empty⟩ [none] 4).run (some saturating) = .ok after ∧
      (fresh ⟨Session.pipelineGenerator, usedNames⟩ [none] 4).run (some saturating) .latestFirst =
        .ok after' ∧
      after.measured = after'.measured ∧ after.measurements = after'.measurements ∧
      after.steps = after'.steps ∧
      after.best.map BestRun.merits = after'.best.map BestRun.merits := by
  have hg : Generator.create { dimensions := Session.batchSizes } {} [Session.pipeline]
      (some .empty) = .ok Session.pipelineGenerator := rfl
  have hempty : ∀ entity, (VariantNames.empty.entity entity).size ≤ 1 := fun _ => Nat.zero_le _
  have hused : ∀ entity, (usedNames.entity entity).size ≤ 1 :=
    VariantNames.size_call_le .empty (.assign "bert" (.obj []) false)
  have hrank : ∀ after,
      (fresh ⟨Session.pipelineGenerator, .empty⟩ [none] 4).run (some saturating) = .ok after →
      RunConstraints.IsPreorder [none] after.measured.results := by
    intro after hafter
    obtain ⟨other, hother, hrank⟩ := exists_run_pipeline
    rw [show other = after from Except.ok.inj (hother.symm.trans hafter)] at hrank
    exact hrank
  obtain ⟨after, after', hrun, hrun', hmeasured, -, hmeasurements, hsteps, hbest⟩ :=
    run_same_in_registries hg (by simpa using Session.isBuilt_pipeline) (.refl false _)
      (VariantNames.assigned_assign .empty "bert" (.obj []) false) [] [] (by simp) (by simp) rfl
      [none] 4 readsOnly_saturating (Or.inr hrank) (fun _ h => h.hasRoom_of_pipeline hempty)
      (fun _ h => h.hasRoom_of_pipeline hused)
  exact ⟨after, after', hrun, hrun', hmeasured, hmeasurements, hsteps, hbest⟩

end HillClimb

end ServingTuner
