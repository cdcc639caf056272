import Mathlib
import ServingTuner.Proofs.Search.Best
import ServingTuner.Proofs.Search.Steps

/-!
# The trials of a search

A search tries one run after another: the default configuration, unless its generator is past it,
and then the configuration at each coordinate that it measures.  Whatever it keeps besides the
measured coordinates is told by the trials alone.  It remembers their results
(`HillClimb.Remembers`): the first trial of a text was handed to the measure function, and every
later one has the result of that one.  And it keeps the first best of them
(`HillClimb.IsFirstBest`), if the ranking is a total preorder on the results.

Each trial of a coordinate is that of the configuration which the generator has for it by then
(`HillClimb.MadeAt`), so a search on its way has a log of its trials that matches its record of
measured coordinates (`HillClimb.Logged`).
-/

namespace ServingTuner

/-- A run that was tried: the coordinate that it was made at, if it is not the default one, and the
result that it has. -/
structure Trial (α : Type) where
  coordinate : Option Coordinate
  config : RunConfig
  result : Option (RunMeasurement α)

/-- The trial that made a run the best one. -/
def BestRun.trial {α : Type} (best : BestRun α) : Trial α :=
  ⟨best.coordinate, best.config, some best.measurement⟩

namespace HillClimb

variable {α : Type} {measure : Measure α} {scan : Scan α} {s t : HillClimb α} {config : RunConfig}
  {coordinate : Option Coordinate} {trials : List (Trial α)} {trial : Trial α}

/-! ### Remembered results -/

/-- The answers of a measure function to the runs that it was handed one after another, under the
texts of the runs. -/
def answers (measure : Measure α) (calls : List RunConfig) :
    List (String × Option (RunMeasurement α)) :=
  calls.mapIdx fun i config => (config.text, measure (calls.take i) config)

/-- A further run adds an answer and leaves the others what they are. -/
lemma answers_concat (measure : Measure α) (calls : List RunConfig) (config : RunConfig) :
    answers measure (calls ++ [config]) =
      answers measure calls ++ [(config.text, measure calls config)] := by
  rw [answers, List.mapIdx_concat, List.take_left', answers]
  · congr 1
    refine List.mapIdx_eq_mapIdx_iff.mpr fun i hi => ?_
    rw [List.take_append_of_le_length hi.le]
  · rfl

/-- A search remembers the results of trials: they are the answers to the runs that it handed to the
measure function, no two of which have the same text, and those runs are the first trials of their
texts. -/
structure Remembers (measure : Measure α) (trials : List (Trial α)) (s : HillClimb α) : Prop where
  answers : s.results = answers measure s.calls
  unique : (s.results.map (·.1)).Nodup
  tried : ∀ trial ∈ trials, (trial.config.text, trial.result) ∈ s.results
  answered : ∀ entry ∈ s.results, ∃ trial ∈ trials, entry = (trial.config.text, trial.result)
  first : ∀ text trial, trials.find? (·.config.text == text) = some trial →
    ∃ asked others, s.calls = asked ++ trial.config :: others ∧
      measure asked trial.config = trial.result

/-- Trials of one text have one result. -/
lemma Remembers.result_eq (h : s.Remembers measure trials) {other : Trial α} (htrial : trial ∈ trials)
    (hother : other ∈ trials) (htext : trial.config.text = other.config.text) :
    trial.result = other.result := by
  have hsame := List.inj_on_of_nodup_map h.unique (h.tried trial htrial) (h.tried other hother) htext
  exact (Prod.mk.inj hsame).2

/-- The results of trials are among the remembered ones. -/
lemma Remembers.results_subset (h : s.Remembers measure trials) :
    trials.map (·.result) ⊆ s.results.map (·.2) := by
  intro result hresult
  obtain ⟨trial, htrial, rfl⟩ := List.mem_map.mp hresult
  exact List.mem_map_of_mem (f := (·.2)) (h.tried trial htrial)

/-- The result of a run is the one under its text if there is one, and else the answer of the
measure function, which is remembered then. -/
lemma result_cases (measure : Measure α) (config : RunConfig) (s : HillClimb α) :
    (∃ result, (config.text, result) ∈ s.results ∧ s.result measure config = (result, s)) ∨
      config.text ∉ s.results.map (·.1) ∧
        s.result measure config = (measure s.calls config,
          { s with
            results := s.results ++ [(config.text, measure s.calls config)]
            calls := s.calls ++ [config]
            measurements := s.measurements + 1 }) := by
  cases hfind : s.results.find? (·.1 == config.text) with
  | some entry =>
    have htext : entry.1 = config.text := by simpa using List.find?_some hfind
    refine Or.inl ⟨entry.2, ?_, by rw [result, hfind]⟩
    rw [← htext]
    exact List.mem_of_find?_eq_some hfind
  | none =>
    refine Or.inr ⟨?_, by rw [result, hfind]⟩
    intro hmem
    obtain ⟨entry, hentry, htext⟩ := List.mem_map.mp hmem
    exact List.find?_eq_none.mp hfind entry hentry (by simpa using htext)

/-- A search with the same results and calls remembers the same trials. -/
lemma Remembers.congr (h : s.Remembers measure trials) (hresults : t.results = s.results)
    (hcalls : t.calls = s.calls) : t.Remembers measure trials := by
  obtain ⟨hanswers, hunique, htried, hanswered, hfirst⟩ := h
  refine ⟨?_, ?_, ?_, ?_, ?_⟩
  · rwa [hresults, hcalls]
  · rwa [hresults]
  · rwa [hresults]
  · rwa [hresults]
  · rwa [hcalls]

/-- A search remembers the result of a trial whose text had that result before. -/
lemma Remembers.again (h : s.Remembers measure trials)
    (hknown : (trial.config.text, trial.result) ∈ s.results) :
    s.Remembers measure (trials ++ [trial]) := by
  refine ⟨h.answers, h.unique, ?_, ?_, ?_⟩
  · exact List.forall_mem_append.mpr ⟨h.tried, List.forall_mem_singleton.mpr hknown⟩
  · intro entry hentry
    obtain ⟨old, hold, heq⟩ := h.answered entry hentry
    exact ⟨old, List.mem_append_left _ hold, heq⟩
  · intro text first hfirst
    rw [List.find?_append] at hfirst
    rcases Option.or_eq_some_iff.mp hfirst with hold | ⟨hnone, hlast⟩
    · exact h.first text first hold
    · -- The text was remembered, so it is that of a trial before.
      obtain ⟨old, hold, heq⟩ := h.answered _ hknown
      have htext : (trial.config.text == text) = true := by
        rw [List.find?_singleton] at hlast
        split_ifs at hlast with htext
        exact htext
      rw [(Prod.mk.inj heq).1] at htext
      exact absurd htext (List.find?_eq_none.mp hnone old hold)

/-- A search remembers the answer to a trial of a new text. -/
lemma Remembers.anew (h : s.Remembers measure trials)
    (hnew : trial.config.text ∉ s.results.map (·.1))
    (hanswer : measure s.calls trial.config = trial.result)
    (hresults : t.results = s.results ++ [(trial.config.text, trial.result)])
    (hcalls : t.calls = s.calls ++ [trial.config]) : t.Remembers measure (trials ++ [trial]) := by
  constructor
  · rw [hresults, hcalls, answers_concat, h.answers, hanswer]
  · rw [hresults, List.map_append, List.map_singleton, ← List.concat_eq_append]
    exact List.Nodup.concat hnew h.unique
  · rw [hresults]
    refine List.forall_mem_append.mpr ⟨?_, List.forall_mem_singleton.mpr ?_⟩
    · intro old hold
      exact List.mem_append_left _ (h.tried old hold)
    · exact List.mem_append_right _ List.mem_cons_self
  · rw [hresults]
    refine List.forall_mem_append.mpr ⟨?_, List.forall_mem_singleton.mpr ?_⟩
    · intro entry hentry
      obtain ⟨old, hold, heq⟩ := h.answered entry hentry
      exact ⟨old, List.mem_append_left _ hold, heq⟩
    · exact ⟨trial, List.mem_append_right _ List.mem_cons_self, rfl⟩
  · intro text first hfirst
    rw [List.find?_append] at hfirst
    rw [hcalls]
    rcases Option.or_eq_some_iff.mp hfirst with hold | ⟨-, hlast⟩
    · obtain ⟨asked, others, hasked, hanswer⟩ := h.first text first hold
      refine ⟨asked, others ++ [trial.config], ?_, hanswer⟩
      rw [hasked, List.append_assoc, List.cons_append]
    · obtain rfl := List.mem_singleton.mp (List.mem_of_find?_eq_some hlast)
      exact ⟨s.calls, [], rfl, hanswer⟩

/-- A search remembers the result of one more trial. -/
lemma Remembers.result (h : s.Remembers measure trials) (config : RunConfig)
    (coordinate : Option Coordinate) :
    (s.result measure config).2.Remembers measure
      (trials ++ [⟨coordinate, config, (s.result measure config).1⟩]) := by
  rcases result_cases measure config s with ⟨result, hknown, hresult⟩ | ⟨hnew, hresult⟩
  · rw [hresult]
    exact h.again hknown
  · rw [hresult]
    exact h.anew hnew rfl rfl rfl

/-! ### The first best -/

variable [Quantity α] {constraints : RunConstraints α}

/-- The best run is the first best of the trials: it ranks above all before it, and none after it
ranks above it.  Where there is no best run all trials failed. -/
def IsFirstBest (constraints : RunConstraints α) (trials : List (Trial α)) :
    Option (BestRun α) → Prop
  | none => ∀ trial ∈ trials, trial.result = none
  | some best =>
    best.feasible = constraints.satisfied best.measurement ∧
    ∃ before rest, trials = before ++ best.trial :: rest ∧
      (∀ earlier ∈ before, constraints.rank (some best.measurement) earlier.result = .gt) ∧
      ∀ later ∈ rest, constraints.rank later.result (some best.measurement) ≠ .gt

/-- The first best of some trials is one of them. -/
lemma IsFirstBest.trial_mem {best : BestRun α} (h : IsFirstBest constraints trials (some best)) :
    best.trial ∈ trials := by
  obtain ⟨-, before, rest, rfl, -⟩ := h
  exact List.mem_append_right _ List.mem_cons_self

/-- The first best of some trials is that of one more, if this does not rank above it. -/
lemma IsFirstBest.keep {best : BestRun α} (h : IsFirstBest constraints trials (some best))
    (hrank : constraints.rank trial.result (some best.measurement) ≠ .gt) :
    IsFirstBest constraints (trials ++ [trial]) (some best) := by
  obtain ⟨hfeasible, before, rest, rfl, hbefore, hrest⟩ := h
  refine ⟨hfeasible, before, rest ++ [trial], ?_, hbefore, ?_⟩
  · rw [List.append_assoc, List.cons_append]
  · exact List.forall_mem_append.mpr ⟨hrest, List.forall_mem_singleton.mpr hrank⟩

/-- A run that ranks above the first best of some trials ranks above all of them. -/
lemma IsFirstBest.rank_eq_gt {best : BestRun α} (h : IsFirstBest constraints trials (some best))
    {result : Option (RunMeasurement α)}
    (hpreorder : constraints.IsPreorder (result :: trials.map (·.result)))
    (hrank : constraints.rank result (some best.measurement) = .gt) :
    ∀ trial ∈ trials, constraints.rank result trial.result = .gt := by
  obtain ⟨-, before, rest, rfl, hbefore, hrest⟩ := h
  intro trial htrial
  have hmem : ∀ other ∈ before ++ best.trial :: rest,
      other.result ∈ result :: (before ++ best.trial :: rest).map (·.result) :=
    fun other hother => List.mem_cons_of_mem _ (List.mem_map_of_mem hother)
  have hbest := hmem best.trial (List.mem_append_right _ List.mem_cons_self)
  have hle : constraints.rank (some best.measurement) trial.result ≠ .lt := by
    rcases List.mem_append.mp htrial with hearlier | hlater
    · rw [hbefore trial hearlier]
      decide
    · rcases List.mem_cons.mp hlater with rfl | hlater
      · rw [show constraints.rank (some best.measurement) best.trial.result = .eq from
          hpreorder.rank_self hbest]
        decide
      · exact hpreorder.not_lt (hmem trial htrial) hbest (hrest trial hlater)
  exact hpreorder.gt_of_gt_of_ge List.mem_cons_self hbest (hmem trial htrial) hrank hle

/-- To consider one more trial is to keep the first best. -/
lemma IsFirstBest.consider (h : IsFirstBest s.constraints trials s.best)
    (hpreorder : s.constraints.IsPreorder ((trials ++ [trial]).map (·.result))) :
    IsFirstBest s.constraints (trials ++ [trial])
      (s.consider trial.config trial.result trial.coordinate).best := by
  have hcons : trial.result :: trials.map (·.result) ⊆ (trials ++ [trial]).map (·.result) := by
    rw [List.map_append]
    exact List.cons_subset.mpr ⟨List.mem_append_right _ List.mem_cons_self,
      List.subset_append_left _ _⟩
  obtain ⟨coordinate, config, result⟩ := trial
  cases result with
  | none =>
    show IsFirstBest s.constraints _ s.best
    cases hbest : s.best with
    | none =>
      rw [hbest] at h
      exact List.forall_mem_append.mpr ⟨h, List.forall_mem_singleton.mpr rfl⟩
    | some best =>
      rw [hbest] at h
      exact h.keep (show Ordering.lt ≠ .gt by decide)
  | some measurement =>
    cases hbest : s.best with
    | none =>
      rw [hbest] at h
      rw [HillClimb.consider, hbest]
      refine ⟨rfl, trials, [], rfl, ?_, by simp⟩
      intro earlier hearlier
      rw [h earlier hearlier]
      rfl
    | some best =>
      rw [hbest] at h
      simp only [HillClimb.consider, hbest]
      split_ifs with himproves
      · have habove := h.rank_eq_gt (hpreorder.mono hcons) (eq_of_beq himproves)
        exact ⟨rfl, trials, [], rfl, habove, by simp⟩
      · rw [hbest]
        exact h.keep fun hgt => himproves (by rw [hgt]; rfl)

/-! ### Trying a run -/

/-- The accounts that a search keeps of trials: it remembers their results, and its best run is the
first best of them if the ranking is a total preorder on all results. -/
structure Ledger (measure : Measure α) (trials : List (Trial α)) (s : HillClimb α) : Prop where
  remembers : s.Remembers measure trials
  best : s.constraints.IsPreorder (s.results.map (·.2)) → IsFirstBest s.constraints trials s.best

/-- A search with the same results, calls and best run keeps the same accounts. -/
lemma Ledger.congr (h : s.Ledger measure trials) (hresults : t.results = s.results)
    (hcalls : t.calls = s.calls) (hconstraints : t.constraints = s.constraints)
    (hbest : t.best = s.best) : t.Ledger measure trials := by
  refine ⟨h.remembers.congr hresults hcalls, ?_⟩
  rw [hresults, hconstraints, hbest]
  exact h.best

/-- A search that has not tried anything has nothing to keep account of. -/
lemma ledger_fresh (measure : Measure α) (session : Session) (constraints : RunConstraints α)
    (maxSteps : UInt32) : (fresh session constraints maxSteps).Ledger measure [] :=
  ⟨⟨rfl, List.nodup_nil, by simp, by simp [fresh], by simp⟩, fun _ => by simp [fresh, IsFirstBest]⟩

/-- To try a run is to get its result and to consider that. -/
def attempt (measure : Measure α) (config : RunConfig) (coordinate : Option Coordinate)
    (s : HillClimb α) : Option (RunMeasurement α) × HillClimb α :=
  let found := s.result measure config
  (found.1, found.2.consider config found.1 coordinate)

/-- To try a run is to find its result, known or new, and to keep the best run. -/
lemma attempt_cases (measure : Measure α) (config : RunConfig) (coordinate : Option Coordinate)
    (s : HillClimb α) :
    ∃ best,
      (∃ result, (config.text, result) ∈ s.results ∧
        s.attempt measure config coordinate = (result, { s with best := best })) ∨
      config.text ∉ s.results.map (·.1) ∧
        s.attempt measure config coordinate = (measure s.calls config,
          { s with
            results := s.results ++ [(config.text, measure s.calls config)]
            calls := s.calls ++ [config]
            measurements := s.measurements + 1
            best := best }) := by
  obtain ⟨best, hbest⟩ := consider_eq config (s.result measure config).1 coordinate
    (s.result measure config).2
  have htried : s.attempt measure config coordinate = ((s.result measure config).1,
      { (s.result measure config).2 with best := best }) := congrArg (Prod.mk _) hbest
  refine ⟨best, ?_⟩
  rcases result_cases measure config s with ⟨result, hknown, hresult⟩ | ⟨hnew, hresult⟩
  · exact Or.inl ⟨result, hknown, by rw [htried, hresult]⟩
  · exact Or.inr ⟨hnew, by rw [htried, hresult]⟩

/-- While a search looks up the result of a further run, its best run stays the first best of the
trials so far. -/
lemma Ledger.best_result (h : s.Ledger measure trials) (config : RunConfig) :
    let t := (s.result measure config).2
    t.constraints.IsPreorder (t.results.map (·.2)) → IsFirstBest t.constraints trials t.best := by
  intro t hpreorder
  obtain ⟨added, asked, -, hresult⟩ := result_eq measure config s
  have ht : t = _ := hresult
  have hsub : s.results.map (·.2) ⊆ t.results.map (·.2) := by
    rw [ht, List.map_append]
    exact List.subset_append_left _ _
  have hconstraints : t.constraints = s.constraints := by rw [ht]
  have hbest : t.best = s.best := by rw [ht]
  rw [hconstraints] at hpreorder ⊢
  rw [hbest]
  exact h.best (hpreorder.mono hsub)

/-- A search that tries a run keeps its accounts with this as the last trial. -/
lemma Ledger.attempt (h : s.Ledger measure trials) (config : RunConfig)
    (coordinate : Option Coordinate) :
    (s.attempt measure config coordinate).2.Ledger measure
      (trials ++ [⟨coordinate, config, (s.attempt measure config coordinate).1⟩]) := by
  let found := s.result measure config
  let trial : Trial α := ⟨coordinate, config, found.1⟩
  have hremembers : found.2.Remembers measure (trials ++ [trial]) :=
    h.remembers.result config coordinate
  have hfirst : found.2.constraints.IsPreorder (found.2.results.map (·.2)) →
      IsFirstBest found.2.constraints (trials ++ [trial])
        (found.2.consider config found.1 coordinate).best := by
    intro hpreorder
    have hbefore := h.best_result config hpreorder
    exact hbefore.consider (hpreorder.mono hremembers.results_subset)
  obtain ⟨best, hbest⟩ := consider_eq config found.1 coordinate found.2
  show (found.2.consider config found.1 coordinate).Ledger measure (trials ++ [trial])
  rw [hbest] at hfirst ⊢
  exact ⟨hremembers.congr rfl rfl, hfirst⟩

/-- To try a run measures no coordinate. -/
lemma measured_attempt (measure : Measure α) (config : RunConfig) (coordinate : Option Coordinate)
    (s : HillClimb α) : (s.attempt measure config coordinate).2.measured = s.measured := by
  obtain ⟨best, ⟨result, -, htried⟩ | ⟨-, htried⟩⟩ := attempt_cases measure config coordinate s
  · rw [htried]
  · rw [htried]

/-- A search that goes on from another session. -/
def withSession (s : HillClimb α) (session : Session) : HillClimb α :=
  { s with generator := session.generator, names := session.names }

/-- To measure the next configuration is to try it, once the session has it. -/
lemma measureNext_eq_ok {result : Option (RunMeasurement α)}
    (h : s.measureNext measure coordinate = .ok (result, t)) :
    ∃ config, (s.session.call .next).1 = .ok (.config config) ∧
      (result, t) = (s.withSession (s.session.call .next).2).attempt measure config coordinate := by
  rcases houtcome : s.generator.next.outcome s.names with ⟨failure | ⟨config, generator⟩, names⟩
  · rw [measureNext, houtcome] at h
    cases h
  · have hcall : s.session.call .next = (.ok (.config config), ⟨generator, names⟩) := by
      rw [Session.call, session, houtcome]
    rw [measureNext, houtcome] at h
    rw [hcall]
    exact ⟨config, rfl, (Except.ok.inj h).symm⟩

/-- To measure a coordinate is to try the configuration that the session has next once it has moved
there, and to record the result. -/
lemma measureAt_eq_ok {c : Coordinate} (h : s.measureAt measure c = .ok t) :
    ∃ config, ((s.session.call (.moveTo c)).2.call .next).1 = .ok (.config config) ∧
      ∃ result u, (result, u) =
        (s.withSession (s.session.run [.moveTo c, .next])).attempt measure config (some c) ∧
        t = { u with measured := u.measured.set c result } := by
  let moved : HillClimb α := { s with generator := { s.generator with cursor := c } }
  have hcall : (s.session.call (.moveTo c)).2 = moved.session := by
    rw [Session.call_moveTo (size_of_measureAt h)]
    rfl
  have hmove : s.measureAt measure c = (moved.measureNext measure (some c)).map
      fun answer => { answer.2 with measured := answer.2.measured.set c answer.1 } := by
    rw [measureAt, Generator.moveTo, if_pos (size_of_measureAt h)]
    rfl
  rw [hmove] at h
  cases hnext : moved.measureNext measure (some c) with
  | error failure => rw [hnext] at h; cases h
  | ok answer =>
    obtain ⟨result, u⟩ := answer
    rw [hnext] at h
    obtain ⟨config, hconfig, hattempt⟩ := measureNext_eq_ok hnext
    have hsession : moved.withSession (moved.session.call .next).2 =
        s.withSession (s.session.run [.moveTo c, .next]) := by
      rw [← hcall]
      rfl
    rw [hsession] at hattempt
    exact ⟨config, hcall ▸ hconfig, result, u, hattempt, (Except.ok.inj h).symm⟩

/-- Past the default configuration, that is the configuration at the coordinate. -/
lemma measureAt_eq_ok_of_stepping {c : Coordinate} (hphase : s.generator.phase = .stepping)
    (h : s.measureAt measure c = .ok t) :
    let asked := (s.session.call (.moveTo c)).2.call (.configAt c)
    t.session = asked.2 ∧ ∃ config, asked.1 = .ok (.config config) ∧
      ∃ result u, (result, u) = (s.withSession asked.2).attempt measure config (some c) ∧
        t = { u with measured := u.measured.set c result } := by
  intro asked
  have hnext : (s.session.call (.moveTo c)).2.call .next = asked :=
    Session.call_next_of_moveTo (s := s.session) hphase (size_of_measureAt h)
  have hrun : s.session.run [.moveTo c, .next] = asked.2 := congrArg Prod.snd hnext
  obtain ⟨result, hgoes⟩ := measures_of_measureAt h
  obtain ⟨config, hconfig, htried⟩ := measureAt_eq_ok h
  rw [hnext] at hconfig
  rw [hrun] at htried
  exact ⟨hgoes.session.trans hrun, config, hconfig, htried⟩

/-- A search that begins tries the default configuration, which is always there, unless its
generator is past it. -/
lemma begin_eq_ok (h : s.begin measure = .ok t) :
    (s.generator.phase = .stepping ∧ t = s) ∨
      s.generator.phase = .default ∧ ∃ config,
        (s.session.call .standard).1 = .ok (.config config) ∧
        t = ((s.withSession ⟨{ s.generator with phase := .stepping }, s.names⟩).attempt
          measure config none).2 := by
  rw [HillClimb.begin] at h
  cases hphase : s.generator.phase with
  | stepping =>
    rw [hphase] at h
    exact Or.inl ⟨rfl, (Except.ok.inj h).symm⟩
  | default =>
    rw [hphase] at h
    refine Or.inr ⟨rfl, ?_⟩
    cases hnext : s.measureNext measure none with
    | error failure =>
      simp only [hnext] at h
      cases h
    | ok answer =>
      obtain ⟨result, u⟩ := answer
      simp only [hnext] at h
      obtain rfl : u = t := Except.ok.inj h
      obtain ⟨config, hconfig, hattempt⟩ := measureNext_eq_ok hnext
      rw [Session.session_next_of_default hphase] at hattempt
      rw [Session.call_next_of_default hphase] at hconfig
      exact ⟨config, hconfig, (Prod.mk.inj hattempt).2⟩

/-- What holds of a search, is kept by trying runs, and does not depend on the session, the measured
coordinates and the number of moves holds of all that the search comes to. -/
lemma Reaches.of_attempts {P : HillClimb α → Prop} {p : Ascent α} (h : s.Reaches measure scan p)
    (hstart : P s)
    (hattempt : ∀ t config coordinate, P t → P (HillClimb.attempt measure config coordinate t).2)
    (hother : ∀ (t : HillClimb α) session measured steps, P t →
      P { t.withSession session with measured := measured, steps := steps }) :
    P p.search := by
  refine h.induction_of_begin (P := fun p => P p.search) ?_ ?_
  · intro begun hbegun
    rcases begin_eq_ok hbegun with ⟨-, rfl⟩ | ⟨-, config, -, rfl⟩
    · exact hstart
    · exact hattempt _ config none
        (hother s ⟨{ s.generator with phase := .stepping }, s.names⟩ s.measured s.steps hstart)
  · intro p q _ hstep hp
    cases hstep with
    | @measure home past s t c hwanted hmeasured =>
      obtain ⟨config, -, result, u, htried, rfl⟩ := measureAt_eq_ok hmeasured
      have hu : P u := by
        rw [show u = _ from (Prod.mk.inj htried).2]
        exact hattempt _ config (some c) (hother s _ s.measured s.steps hp)
      exact hother u u.session _ u.steps hu
    | @move home best past s =>
      exact hother s s.session s.measured (s.steps + 1) hp

/-! ### The log of a search -/

/-- The configuration is the one that a session's generator has for a coordinate after calls that
adopt no name and clear no registry, and only names were assigned since. -/
def MadeAt (session : Session) (names : VariantNames) (c : Coordinate) (config : RunConfig) : Prop :=
  ∃ calls : List SessionCall, (∀ call ∈ calls, call.OnlyAssigns) ∧
    ((session.run calls).call (.configAt c)).1 = .ok (.config config) ∧
    ((session.run calls).call (.configAt c)).2.names.Assigned false names

/-- A trial of the configuration at a measured coordinate, with the result that was recorded. -/
structure IsTrialAt (session : Session) (names : VariantNames)
    (entry : Coordinate × Option (RunMeasurement α)) (trial : Trial α) : Prop where
  coordinate : trial.coordinate = some entry.1
  result : trial.result = entry.2
  config : MadeAt session names entry.1 trial.config

/-- What a search over a session tries before any coordinate: the default configuration, unless its
generator is past it. -/
def IsStart (measure : Measure α) (session : Session) (start : List (Trial α)) : Prop :=
  match session.generator.phase with
  | .default => ∃ config, (session.call .standard).1 = .ok (.config config) ∧
      start = [⟨none, config, measure [] config⟩]
  | .stepping => start = []

/-- The log of a search over a session: what it tried before any coordinate and the trials of all
measured coordinates in order, of which it keeps account. -/
structure Logged (measure : Measure α) (session : Session) (start tries : List (Trial α))
    (s : HillClimb α) : Prop where
  ledger : s.Ledger measure (start ++ tries)
  entries : List.Forall₂ (IsTrialAt session s.names) s.measured tries
  calls : ∃ calls, (∀ call ∈ calls, call.OnlyAssigns) ∧ s.session = session.run calls
  phase : s.generator.phase = .stepping

/-- Where lists are related element by element, every element of the first one is related to one of
the second. -/
lemma exists_mem_of_forall₂ {β γ : Type} {R : β → γ → Prop} {xs : List β} {ys : List γ} {x : β}
    (h : List.Forall₂ R xs ys) (hx : x ∈ xs) : ∃ y ∈ ys, R x y := by
  obtain ⟨i, hi, rfl⟩ := List.mem_iff_getElem.mp hx
  have hi' : i < ys.length := h.length_eq ▸ hi
  exact ⟨ys[i], List.getElem_mem hi', h.get hi hi'⟩

/-- A configuration that was made stays made while names are assigned. -/
lemma MadeAt.mono {session : Session} {names later : VariantNames} {c : Coordinate}
    (h : MadeAt session names c config) (hnames : names.Assigned false later) :
    MadeAt session later c config := by
  obtain ⟨calls, hcalls, hconfig, hkept⟩ := h
  exact ⟨calls, hcalls, hconfig, hkept.trans hnames⟩

/-- What a session answers next, once it has moved to a coordinate, was made there. -/
lemma madeAt_next {session own : Session} {calls : List SessionCall} {c : Coordinate}
    (hcalls : ∀ call ∈ calls, call.OnlyAssigns) (hown : own = session.run calls)
    (hphase : own.generator.phase = .stepping)
    (hsize : c.size = own.generator.space.dimensions.slots.length)
    (hconfig : ((own.call (.moveTo c)).2.call .next).1 = .ok (.config config)) :
    MadeAt session (own.run [.moveTo c, .next]).names c config := by
  have hnext := Session.call_next_of_moveTo hphase hsize
  have hrun : session.run (calls ++ [.moveTo c]) = (own.call (.moveTo c)).2 := by
    rw [Session.run_append, ← hown]
    rfl
  refine ⟨calls ++ [.moveTo c], ?_, ?_, ?_⟩
  · exact List.forall_mem_append.mpr ⟨hcalls, by simp [SessionCall.OnlyAssigns]⟩
  · rw [hrun, ← hnext]
    exact hconfig
  · rw [hrun, ← hnext]
    exact VariantNames.Assigned.refl false _

/-- A search that has begun has a log of what it tried before any coordinate. -/
lemma exists_logged_of_begin {session : Session} {maxSteps : UInt32}
    (h : (fresh session constraints maxSteps).begin measure = .ok t) :
    ∃ start, IsStart measure session start ∧ t.Logged measure session start [] := by
  have hgoes := goesOn_of_begin h
  have hmeasured : t.measured = [] := hgoes.measured
  have hphase : t.generator.phase = .stepping := congrArg (·.generator.phase) hgoes.session
  have hledger := ledger_fresh measure session constraints maxSteps
  rcases begin_eq_ok h with ⟨hstart, rfl⟩ | ⟨hstart, config, hconfig, rfl⟩
  · have hstart' : session.generator.phase = .stepping := hstart
    exact ⟨[], by rw [IsStart, hstart'], hledger, .nil, ⟨[], by simp, rfl⟩, hphase⟩
  · have hstart' : session.generator.phase = .default := hstart
    let moved := (fresh session constraints maxSteps).withSession
      ⟨{ session.generator with phase := .stepping }, session.names⟩
    have htried := (hledger.congr (t := moved) rfl rfl rfl rfl).attempt config none
    refine ⟨[⟨none, config, measure [] config⟩], ?_, htried, ?_, ⟨[.next], ?_, ?_⟩, hphase⟩
    · rw [IsStart, hstart']
      exact ⟨config, hconfig, rfl⟩
    · rw [hmeasured]
      exact .nil
    · simp [SessionCall.OnlyAssigns]
    · exact hgoes.session.trans (Session.session_next_of_default hstart').symm

/-- A search that measures what it wants has a log with one more trial. -/
lemma Logged.measureAt {session : Session} {start tries : List (Trial α)} {c home : Coordinate}
    (h : s.Logged measure session start tries) (hwanted : s.wanted? home = some c)
    (hmeasured : s.measureAt measure c = .ok t) :
    ∃ trial, t.Logged measure session start (tries ++ [trial]) := by
  obtain ⟨config, hconfig, result, u, hattempt, rfl⟩ := measureAt_eq_ok hmeasured
  obtain ⟨calls, honly, hcalls⟩ := h.calls
  obtain ⟨goes, ht⟩ := measures_of_measureAt hmeasured
  have hmade : MadeAt session (s.session.run [.moveTo c, .next]).names c config :=
    madeAt_next honly hcalls h.phase (size_of_measureAt hmeasured) hconfig
  have hrequests : ∀ call ∈ [SessionCall.moveTo c, .next], call.OnlyAssigns := by
    simp [SessionCall.OnlyAssigns]
  have hkept : s.names.Assigned false (s.session.run [.moveTo c, .next]).names :=
    s.session.run_assigned hrequests
  have hnames : u.names = (s.session.run [.moveTo c, .next]).names :=
    congrArg (·.names) ht.session
  have htried := (h.ledger.congr (t := s.withSession (s.session.run [.moveTo c, .next]))
    rfl rfl rfl rfl).attempt config (some c)
  have hrecord := measured_attempt measure config (some c)
    (s.withSession (s.session.run [.moveTo c, .next]))
  rw [← hattempt] at htried hrecord
  refine ⟨⟨some c, config, result⟩, ?_, ?_, ⟨calls ++ [.moveTo c, .next], ?_, ?_⟩, ?_⟩
  · rw [← List.append_assoc]
    exact htried.congr rfl rfl rfl rfl
  · show List.Forall₂ (IsTrialAt session u.names) (u.measured.set c result) _
    rw [hnames, show u.measured = s.measured from hrecord,
      Measured.set_of_new (wanted?_eq_some hwanted).1]
    refine List.rel_append (h.entries.imp fun entry trial htrial => ?_)
      (.cons ⟨rfl, rfl, hmade⟩ .nil)
    exact ⟨htrial.coordinate, htrial.result, htrial.config.mono hkept⟩
  · exact List.forall_mem_append.mpr ⟨honly, hrequests⟩
  · rw [Session.run_append, ← hcalls]
    exact ht.session
  · rw [generator_of_measureAt hmeasured]

/-- A search on its way has a log. -/
theorem Reaches.exists_logged {session : Session} {maxSteps : UInt32} {p : Ascent α}
    (h : (fresh session constraints maxSteps).Reaches measure scan p) :
    ∃ start tries, IsStart measure session start ∧ p.search.Logged measure session start tries := by
  refine h.induction_of_begin (P := fun p => ∃ start tries, IsStart measure session start ∧
    p.search.Logged measure session start tries) ?_ ?_
  · intro begun hbegun
    obtain ⟨start, hstart, hlogged⟩ := exists_logged_of_begin hbegun
    exact ⟨start, [], hstart, hlogged⟩
  · rintro p q - hstep ⟨start, tries, hstart, hlogged⟩
    cases hstep with
    | measure hwanted hmeasured =>
      obtain ⟨trial, htrial⟩ := hlogged.measureAt hwanted hmeasured
      exact ⟨start, tries ++ [trial], hstart, htrial⟩
    | move =>
      exact ⟨start, tries, hstart, hlogged.ledger.congr rfl rfl rfl rfl, hlogged.entries,
        hlogged.calls, hlogged.phase⟩

end HillClimb

end ServingTuner
