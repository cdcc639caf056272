import Mathlib
import ServingTuner.HillClimb
import ServingTuner.Proofs.Generator.Session
import ServingTuner.Proofs.Search.Measured

/-!
# Measuring what a search wants

At every time a search wants at most one coordinate measured (`wanted?`): the next one of the
neighborhood of its home until that is explored, and home itself in any case.  What it wants is new,
so its result is put at the end of the record and one coordinate less is missing around home.  A
measurement takes the session with the generator on by a move and a request for the next
configuration, and this fails only where an entity has run out of names.
-/

namespace ServingTuner

namespace HillClimb

variable {α : Type} {measure : Measure α} {s t : HillClimb α} {c home : Coordinate}

/-! ### What is wanted -/

/-- The coordinate that a home wants measured: the next one until its neighborhood is explored, and
home itself in any case. -/
def wanted? (s : HillClimb α) (home : Coordinate) : Option Coordinate :=
  if (s.neighborhood home).isExplored then
    if s.measured.has home then none else some home
  else (s.neighborhood home).next?

/-- What is wanted is not measured yet.  It is home as long as home is not measured, and later a
neighbor, as long as the neighborhood is not explored. -/
lemma wanted?_eq_some (h : s.wanted? home = some c) :
    s.measured.has c = false ∧
      (c = home ∨ s.measured.has home = true ∧ (s.neighborhood home).isExplored = false ∧
        c ∈ (s.neighborhood home).ball.neighbors) := by
  rw [wanted?] at h
  split_ifs at h with hexplored hhome
  · obtain rfl := Option.some.inj h
    exact ⟨by simpa using hhome, Or.inl rfl⟩
  · obtain ⟨hnew, hfrom⟩ := Neighborhood.next?_eq_some h
    rcases hfrom with hhome | ⟨hhome, hneighbor⟩
    · exact ⟨hnew, Or.inl hhome⟩
    · exact ⟨hnew, Or.inr ⟨hhome, by simpa using hexplored, hneighbor⟩⟩

/-- A home that wants nothing is measured, and its neighborhood is explored or measured as a
whole. -/
lemma wanted?_eq_none (h : s.wanted? home = none) :
    s.measured.has home = true ∧ ((s.neighborhood home).isExplored = true ∨
      ∀ c ∈ (s.neighborhood home).ball.neighbors, s.measured.has c = true) := by
  rw [wanted?] at h
  split_ifs at h with hexplored hhome
  · exact ⟨hhome, Or.inl hexplored⟩
  · obtain ⟨hhome, hneighbors⟩ := Neighborhood.next?_eq_none h
    exact ⟨hhome, Or.inr hneighbors⟩

/-- The coordinates around a home that are not measured yet. -/
def missing (s : HillClimb α) (home : Coordinate) : Finset Coordinate :=
  (home :: (s.neighborhood home).ball.neighbors).toFinset.filter (s.measured.has · = false)

/-- No more coordinates are missing than a home and its neighbors. -/
lemma card_missing_le (s : HillClimb α) (home : Coordinate) :
    (s.missing home).card ≤ (s.neighborhood home).ball.count + 1 := by
  refine (Finset.card_filter_le _ _).trans ((List.toFinset_card_le _).trans ?_)
  rw [List.length_cons, Ball.length_neighbors]

/-- What is wanted is missing. -/
lemma mem_missing_of_wanted? (h : s.wanted? home = some c) : c ∈ s.missing home := by
  obtain ⟨hnew, hfrom⟩ := wanted?_eq_some h
  rw [missing, Finset.mem_filter, List.mem_toFinset, List.mem_cons]
  exact ⟨hfrom.imp_right fun hneighbor => hneighbor.2.2, hnew⟩

/-! ### Measuring -/

/-- The generator of a search with the registry that it names variants in. -/
def session (s : HillClimb α) : Session := ⟨s.generator, s.names⟩

/-- What one run can change of a search: there is another session and other measured coordinates,
and at most one run is handed to the measure function. -/
structure GoesOn (s t : HillClimb α) (session : Session) (measured : Measured α) : Prop where
  session : t.session = session
  measured : t.measured = measured
  constraints : t.constraints = s.constraints
  maxSteps : t.maxSteps = s.maxSteps
  steps : t.steps = s.steps
  calls : ∃ asked, t.calls = s.calls ++ asked ∧ asked.length ≤ 1 ∧
    t.measurements = s.measurements + asked.length

/-- To get the result of a run is to remember it, and to have it measured if it is new. -/
lemma result_eq (measure : Measure α) (config : RunConfig) (s : HillClimb α) :
    ∃ added asked, asked.length ≤ 1 ∧ (s.result measure config).2 =
      { s with
        results := s.results ++ added
        calls := s.calls ++ asked
        measurements := s.measurements + asked.length } := by
  rw [result]
  split
  · exact ⟨[], [], Nat.zero_le _, by simp⟩
  · exact ⟨_, [config], le_rfl, rfl⟩

variable [Quantity α]

/-- To consider a run is to keep the best one. -/
lemma consider_eq (config : RunConfig) (result : Option (RunMeasurement α))
    (coordinate : Option Coordinate) (s : HillClimb α) :
    ∃ best, s.consider config result coordinate = { s with best := best } := by
  cases result with
  | none => exact ⟨s.best, rfl⟩
  | some measurement =>
    dsimp only [consider]
    split_ifs
    · exact ⟨_, rfl⟩
    · exact ⟨s.best, rfl⟩

/-- The next configuration is measured if the session has one. -/
lemma measureNext_cases (measure : Measure α) (coordinate : Option Coordinate) (s : HillClimb α) :
    (∃ result t, s.measureNext measure coordinate = .ok (result, t) ∧
      s.GoesOn t (s.session.call .next).2 s.measured) ∨
      ∃ failure, s.measureNext measure coordinate = .error failure ∧
        (s.session.call .next).1 = .error failure := by
  rcases houtcome : s.generator.next.outcome s.names with ⟨failure | ⟨config, generator⟩, names⟩
  · refine Or.inr ⟨failure, ?_, ?_⟩
    · rw [measureNext, houtcome]
      rfl
    · rw [Session.call, session, houtcome]
  · let named : HillClimb α := { s with generator := generator, names := names }
    let found := named.result measure config
    have hok : s.measureNext measure coordinate =
        .ok (found.1, found.2.consider config found.1 coordinate) := by
      rw [measureNext, houtcome]
      rfl
    obtain ⟨added, asked, hasked, hresult⟩ := result_eq measure config named
    obtain ⟨best, hbest⟩ := consider_eq config found.1 coordinate found.2
    refine Or.inl ⟨_, _, hok, ?_⟩
    rw [hbest, show found.2 = _ from hresult]
    refine ⟨?_, rfl, rfl, rfl, rfl, asked, rfl, hasked, rfl⟩
    rw [Session.call, session, session, houtcome]

/-- A search begins by measuring the default configuration, which is always there, unless its
generator is past it.  That names no variant. -/
lemma exists_begin (measure : Measure α) (s : HillClimb α) :
    ∃ t, s.begin measure = .ok t ∧
      s.GoesOn t ⟨{ s.generator with phase := .stepping }, s.names⟩ s.measured := by
  cases hphase : s.generator.phase with
  | default =>
    obtain ⟨config, hstandard, -⟩ := s.session.exists_call_standard
    have hcall : s.session.call .next =
        (.ok (.config config), ⟨{ s.generator with phase := .stepping }, s.names⟩) := by
      rw [Session.call_next_of_default hphase, hstandard]
      rfl
    rcases measureNext_cases measure none s with ⟨result, t, hnext, ht⟩ | ⟨failure, -, hfailed⟩
    · rw [hcall] at ht
      refine ⟨t, ?_, ht⟩
      rw [HillClimb.begin, hphase]
      show (s.measureNext measure none).map (·.2) = .ok t
      rw [hnext]
      rfl
    · rw [hcall] at hfailed
      cases hfailed
  | stepping =>
    refine ⟨s, ?_, ?_, rfl, rfl, rfl, rfl, [], by simp, Nat.zero_le _, rfl⟩
    · rw [HillClimb.begin, hphase]
    · rw [session, ← hphase]

/-- What comes of a search that begins. -/
lemma goesOn_of_begin (h : s.begin measure = .ok t) :
    s.GoesOn t ⟨{ s.generator with phase := .stepping }, s.names⟩ s.measured := by
  obtain ⟨begun, hbegun, hgoes⟩ := exists_begin measure s
  rw [hbegun] at h
  cases h
  exact hgoes

/-- What measuring a coordinate makes of a search: the session goes on by a move and a request for
the next configuration, and the coordinate gets a result. -/
def Measures (c : Coordinate) (s t : HillClimb α) : Prop :=
  ∃ result, s.GoesOn t (s.session.run [.moveTo c, .next]) (s.measured.set c result)

/-- A coordinate of the right size is measured if the session then has a next configuration. -/
lemma measureAt_cases (measure : Measure α) (s : HillClimb α)
    (hsize : c.size = s.generator.space.dimensions.slots.length) :
    (∃ t, s.measureAt measure c = .ok t ∧ s.Measures c t) ∨
      ∃ failure, s.measureAt measure c = .error failure ∧
        ((s.session.call (.moveTo c)).2.call .next).1 = .error failure := by
  let moved : HillClimb α := { s with generator := { s.generator with cursor := c } }
  have hcall : (s.session.call (.moveTo c)).2 = moved.session := by
    rw [Session.call_moveTo hsize]
    rfl
  have hmove : s.measureAt measure c = (moved.measureNext measure (some c)).map
      fun answer => { answer.2 with measured := answer.2.measured.set c answer.1 } := by
    rw [measureAt, Generator.moveTo, if_pos hsize]
    rfl
  rw [hmove, hcall]
  rcases measureNext_cases measure (some c) moved with
    ⟨result, t, hnext, ht⟩ | ⟨failure, hnext, hfailed⟩
  · refine Or.inl ⟨{ t with measured := t.measured.set c result }, ?_, result, ?_⟩
    · rw [hnext]
      rfl
    · have hrun : s.session.run [.moveTo c, .next] = (moved.session.call .next).2 := by
        rw [← hcall]
        rfl
      rw [hrun]
      exact ⟨ht.session, congrArg (Measured.set · c result) ht.measured, ht.constraints,
        ht.maxSteps, ht.steps, ht.calls⟩
  · refine Or.inr ⟨failure, ?_, hfailed⟩
    rw [hnext]
    rfl

/-- What was measured has the right size. -/
lemma size_of_measureAt (h : s.measureAt measure c = .ok t) :
    c.size = s.generator.space.dimensions.slots.length := by
  by_contra hsize
  rw [measureAt, Generator.moveTo, if_neg hsize] at h
  cases h

/-- What comes of a measurement that succeeded. -/
lemma measures_of_measureAt (h : s.measureAt measure c = .ok t) : s.Measures c t := by
  rcases measureAt_cases measure s (size_of_measureAt h) with ⟨t', hok, ht⟩ | ⟨failure, herror, -⟩
  · rw [h] at hok
    cases hok
    exact ht
  · rw [h] at herror
    cases herror

/-- A coordinate of the right size can be measured while all entities have names left. -/
lemma exists_measureAt (measure : Measure α)
    (hsize : c.size = s.generator.space.dimensions.slots.length)
    (hroom : (s.session.run [.moveTo c, .next]).names.HasRoom) :
    ∃ t, s.measureAt measure c = .ok t := by
  rcases measureAt_cases measure s hsize with ⟨t, hok, -⟩ | ⟨failure, -, hfailed⟩
  · exact ⟨t, hok⟩
  · have hcursor : (s.session.call (.moveTo c)).2.generator =
        { s.generator with cursor := c } := by
      rw [Session.call_moveTo hsize]
      rfl
    obtain ⟨answer, hok⟩ := Session.call_ok (s := (s.session.call (.moveTo c)).2) (c := .next)
      (by rw [hcursor]; exact hsize) (by simp [SessionCall.coordinate?]) (by simp) hroom
    rw [hfailed] at hok
    cases hok

/-- A measurement leaves the cursor at its coordinate, and the generator is past the default
configuration. -/
lemma generator_of_measureAt (h : s.measureAt measure c = .ok t) :
    t.generator = { s.generator with cursor := c, phase := .stepping } := by
  obtain ⟨result, ht⟩ := measures_of_measureAt h
  have hcursor : (s.session.call (.moveTo c)).2.generator = { s.generator with cursor := c } := by
    rw [Session.call_moveTo (size_of_measureAt h)]
    rfl
  obtain ⟨phase, hnext, hphase⟩ := (s.session.call (.moveTo c)).2.call_generator .next
  obtain rfl := hphase.mpr (Or.inr rfl)
  have hgenerator : t.generator = _ := congrArg Session.generator ht.session
  rw [hgenerator]
  show ((s.session.call (.moveTo c)).2.call .next).2.generator = _
  rw [hnext, hcursor]
  rfl

/-! ### Measuring what is wanted -/

/-- What is wanted is measured for the first time. -/
lemma measured_of_wanted? (hwanted : s.wanted? home = some c) (h : s.measureAt measure c = .ok t) :
    ∃ result, t.measured = s.measured ++ [(c, result)] := by
  obtain ⟨result, ht⟩ := measures_of_measureAt h
  exact ⟨result, ht.measured.trans (Measured.set_of_new (wanted?_eq_some hwanted).1 result)⟩

/-- To measure what is wanted adds one coordinate to the record. -/
lemma length_measured_of_measureAt (hwanted : s.wanted? home = some c)
    (hmeasured : s.measureAt measure c = .ok t) : t.measured.length = s.measured.length + 1 := by
  obtain ⟨result, hrecord⟩ := measured_of_wanted? hwanted hmeasured
  rw [hrecord, List.length_append, List.length_singleton]

/-- To measure what is wanted measures no coordinate twice. -/
lemma nodup_of_measureAt (hwanted : s.wanted? home = some c)
    (hmeasured : s.measureAt measure c = .ok t) (hunique : s.measured.coordinates.Nodup) :
    t.measured.coordinates.Nodup := by
  obtain ⟨result, hrecord⟩ := measured_of_wanted? hwanted hmeasured
  have hnew : c ∉ s.measured.coordinates := by
    rw [← Measured.has_iff, (wanted?_eq_some hwanted).1]
    simp
  rw [hrecord, Measured.coordinates, List.map_append]
  refine List.nodup_append.mpr ⟨hunique, List.nodup_singleton c, ?_⟩
  intro x hx y hy hxy
  rw [hxy, List.mem_singleton.mp hy] at hx
  exact hnew hx

/-- To measure what is wanted makes one more coordinate a measured one. -/
lemma has_of_measureAt (hwanted : s.wanted? home = some c) (h : s.measureAt measure c = .ok t)
    (other : Coordinate) : t.measured.has other = true ↔ s.measured.has other = true ∨ other = c := by
  obtain ⟨result, hmeasured⟩ := measured_of_wanted? hwanted h
  rw [hmeasured, Measured.has_iff, Measured.has_iff, Measured.coordinates, List.map_append,
    List.mem_append]
  exact or_congr_right List.mem_singleton

/-- A measurement changes nothing around a home but what is recorded. -/
lemma exists_neighborhood_of_measureAt (h : s.measureAt measure c = .ok t) (home : Coordinate) :
    ∃ result, t.neighborhood home =
      { s.neighborhood home with measured := s.measured.set c result } := by
  obtain ⟨result, ht⟩ := measures_of_measureAt h
  refine ⟨result, ?_⟩
  unfold neighborhood
  rw [generator_of_measureAt h, ht.measured]

/-- A measurement does not change the ball around a home. -/
lemma ball_of_measureAt (h : s.measureAt measure c = .ok t) (home : Coordinate) :
    (t.neighborhood home).ball = (s.neighborhood home).ball := by
  obtain ⟨result, ht⟩ := exists_neighborhood_of_measureAt h home
  rw [ht]

/-- A measurement does not change how many coordinates are to be measured around a home. -/
lemma minMeasured_of_measureAt (h : s.measureAt measure c = .ok t) (home : Coordinate) :
    (t.neighborhood home).minMeasured = (s.neighborhood home).minMeasured := by
  obtain ⟨result, ht⟩ := exists_neighborhood_of_measureAt h home
  rw [ht]

/-- To measure what is wanted counts for a neighborhood if it lies in there. -/
lemma measuredCount_of_measureAt (hwanted : s.wanted? home = some c)
    (h : s.measureAt measure c = .ok t) :
    (t.neighborhood home).measuredCount = (s.neighborhood home).measuredCount +
      if (s.neighborhood home).ball.contains c then 1 else 0 := by
  obtain ⟨result, ht⟩ := exists_neighborhood_of_measureAt h home
  rw [ht]
  exact Neighborhood.measuredCount_set (n := s.neighborhood home) (wanted?_eq_some hwanted).1 result

/-- An explored neighborhood stays explored. -/
lemma isExplored_of_measureAt (hwanted : s.wanted? home = some c)
    (h : s.measureAt measure c = .ok t) (hexplored : (s.neighborhood home).isExplored = true) :
    (t.neighborhood home).isExplored = true := by
  have hminimum := minMeasured_of_measureAt h home
  have hcount := measuredCount_of_measureAt hwanted h
  rw [Neighborhood.isExplored, decide_eq_true_iff] at hexplored ⊢
  rw [hminimum]
  omega

/-- To measure what is wanted leaves less to measure. -/
lemma card_missing_lt (hwanted : s.wanted? home = some c) (h : s.measureAt measure c = .ok t) :
    (t.missing home).card < (s.missing home).card := by
  have hmissing : t.missing home ⊆ (s.missing home).erase c := by
    intro other hother
    rw [missing, Finset.mem_filter, ball_of_measureAt h, ← Bool.not_eq_true,
      has_of_measureAt hwanted h, not_or] at hother
    obtain ⟨hmem, hold, hne⟩ := hother
    rw [Finset.mem_erase, missing, Finset.mem_filter, ← Bool.not_eq_true]
    exact ⟨hne, hmem, hold⟩
  exact (Finset.card_le_card hmissing).trans_lt
    (Finset.card_erase_lt_of_mem (mem_missing_of_wanted? hwanted))

/-! ### The best around -/

/-- Whatever the scan, a home that is measured has a best coordinate around it, which is a measured
one of the ball. -/
lemma exists_best? (scan : Scan α) (hhome : s.measured.has home = true) :
    ∃ found ∈ (s.neighborhood home).entries, s.best? scan home = some found.1 := by
  have horder := scan.perm s.steps s.measured
  have hhome' : (scan.order s.steps s.measured).has home = true :=
    (Measured.has_of_perm horder home).trans hhome
  obtain ⟨found, hfound, hbest⟩ := Neighborhood.exists_best? s.constraints
    (n := { s.neighborhood home with measured := scan.order s.steps s.measured }) hhome'
  have hentries := Neighborhood.entries_perm (n := s.neighborhood home) horder
  exact ⟨found, hentries.mem_iff.mp hfound, hbest⟩

/-- The best coordinate around a home that wants nothing was measured and lies in the ball. -/
lemma contains_of_best? {scan : Scan α} {best : Coordinate} (hwanted : s.wanted? home = none)
    (hbest : s.best? scan home = some best) :
    s.measured.has best = true ∧ (s.neighborhood home).ball.contains best = true := by
  obtain ⟨found, hfound, hsame⟩ := exists_best? scan (wanted?_eq_none hwanted).1
  rw [hbest] at hsame
  obtain rfl := Option.some.inj hsame
  obtain ⟨hmem, hcontains⟩ := Neighborhood.mem_entries.mp hfound
  exact ⟨Measured.has_iff.mpr (List.mem_map_of_mem (f := (·.1)) hmem), hcontains⟩

end HillClimb

end ServingTuner
