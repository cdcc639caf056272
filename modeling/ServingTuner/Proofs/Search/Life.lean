import Mathlib
import ServingTuner.Proofs.Generator.Sharing
import ServingTuner.Proofs.Ranking.Gain
import ServingTuner.Proofs.Search.Accounts
import ServingTuner.Proofs.Search.Trials

/-!
# The life of a search

A search can run any number of times, each time with another measure function, and while it lives
others may use its generator and its registry (`Lives`).  Four things have to stay in step through
all of that: the record of measured coordinates, the answers under the texts of runs, the phase of
the generator and its cursor.

They do as long as names are only assigned (`Orderly`).  Every answer is remembered and asked for
once in the whole life, and the record has at every coordinate the answer for the configuration that
the generator has there, then and ever after.  The default configuration comes first, and as it has
names of its own its answer is not the one at any coordinate (`lives_asked_once`).
-/

namespace ServingTuner

variable {α : Type}

namespace HillClimb

variable {measure : Measure α} {scan : Scan α} {s t u : HillClimb α} {session : Session}
  {replies : List (String × Option (RunMeasurement α))}

/-! ### Answers since a state -/

/-- The answers of a measure function to the runs that it was handed since an earlier state of the
search. -/
def repliesSince (measure : Measure α) (s t : HillClimb α) :
    List (String × Option (RunMeasurement α)) :=
  (answers measure t.calls).drop s.calls.length

/-- As many answers as runs. -/
lemma length_answers (measure : Measure α) (calls : List RunConfig) :
    (answers measure calls).length = calls.length := List.length_mapIdx

/-- The answers to the first runs are the first answers. -/
lemma answers_prefix_of_prefix (measure : Measure α) {calls others : List RunConfig}
    (h : calls <+: others) : answers measure calls <+: answers measure others := by
  obtain ⟨asked, rfl⟩ := h
  induction asked using List.reverseRecOn with
  | nil => rw [List.append_nil]
  | append_singleton asked config ih =>
    rw [← List.append_assoc, answers_concat]
    exact ih.trans (List.prefix_append _ _)

/-- A search that was handed nothing since then got no answers. -/
lemma repliesSince_of_eq (measure : Measure α) (h : t.calls = s.calls) :
    repliesSince measure s t = [] := by
  rw [repliesSince, h, ← length_answers measure, List.drop_length]

/-- A search that was handed one run since then got one answer. -/
lemma repliesSince_of_concat (measure : Measure α) (config : RunConfig)
    (h : t.calls = s.calls ++ [config]) :
    repliesSince measure s t = [(config.text, measure s.calls config)] := by
  rw [repliesSince, h, answers_concat]
  exact List.drop_left' (length_answers measure s.calls)

/-- The answers since a state of the search are those up to a later state and those since then. -/
lemma repliesSince_trans (measure : Measure α) (hst : s.calls <+: t.calls)
    (htu : t.calls <+: u.calls) :
    repliesSince measure s u = repliesSince measure s t ++ repliesSince measure t u := by
  obtain ⟨asked, hasked⟩ := answers_prefix_of_prefix measure htu
  have hlength := length_answers measure t.calls
  rw [repliesSince, repliesSince, repliesSince, ← hasked, List.drop_left' hlength]
  exact List.drop_append_of_le_length (hlength ▸ hst.length_le)

/-! ### Searches in order -/

/-- A search over a session that is in order.  It remembers all answers, one for each run that it
handed over, no two of which had the same text.  Its generator is alike to the one that it started
with, and names were only assigned since.  Each coordinate in its record has a configuration now,
with the names that there are, and the recorded result is the answer for that. -/
structure Orderly (session : Session) (replies : List (String × Option (RunMeasurement α)))
    (s : HillClimb α) : Prop where
  results : s.results = replies
  calls : s.calls.map (·.text) = replies.map (·.1)
  unique : (replies.map (·.1)).Nodup
  measurements : s.measurements = s.calls.length
  alike : session.generator.Alike s.generator
  names : session.names.Assigned false s.names
  measured : ∀ entry ∈ s.measured, ∃ config,
    s.session.call (.configAt entry.1) = (.ok (.config config), s.session) ∧
      (config.text, entry.2) ∈ replies

/-- A search stays in order with a session that is alike and has the same names and more. -/
lemma Orderly.withSession (h : s.Orderly session replies) (later : Session)
    (halike : s.generator.Alike later.generator) (hnames : s.names.Assigned false later.names) :
    (s.withSession later).Orderly session replies := by
  refine ⟨h.results, h.calls, h.unique, h.measurements, h.alike.trans halike,
    h.names.trans hnames, fun entry hentry => ?_⟩
  obtain ⟨config, hcall, hreply⟩ := h.measured entry hentry
  have hkept : (s.session.call (.configAt entry.1)).2.names.Keeps later.names := by
    rw [hcall]
    exact hnames.keeps
  exact ⟨config, Session.call_configAt_again (by rw [hcall]) halike hkept, hreply⟩

/-- A search that records the answer for the configuration at a new coordinate stays in order. -/
lemma Orderly.record {c : Coordinate} {config : RunConfig} {result : Option (RunMeasurement α)}
    (h : s.Orderly session replies) (hnew : s.measured.has c = false)
    (hcall : s.session.call (.configAt c) = (.ok (.config config), s.session))
    (hreply : (config.text, result) ∈ replies) :
    ({ s with measured := s.measured.set c result } : HillClimb α).Orderly session replies := by
  refine ⟨h.results, h.calls, h.unique, h.measurements, h.alike, h.names, ?_⟩
  show ∀ entry ∈ s.measured.set c result, _
  rw [Measured.set_of_new hnew]
  exact List.forall_mem_append.mpr
    ⟨h.measured, List.forall_mem_singleton.mpr ⟨config, hcall, hreply⟩⟩

variable [Quantity α]

/-- A search that tries a run stays in order, and the result is the answer for that run. -/
lemma Orderly.attempt (h : s.Orderly session replies) (measure : Measure α) (config : RunConfig)
    (coordinate : Option Coordinate) :
    let tried := s.attempt measure config coordinate
    tried.2.Orderly session (replies ++ repliesSince measure s tried.2) ∧
      (config.text, tried.1) ∈ replies ++ repliesSince measure s tried.2 := by
  intro tried
  obtain ⟨best, ⟨result, hknown, htried⟩ | ⟨hnew, htried⟩⟩ :=
    attempt_cases measure config coordinate s
  · rw [show tried = _ from htried, repliesSince_of_eq measure (by rfl), List.append_nil]
    refine ⟨⟨h.results, h.calls, h.unique, h.measurements, h.alike, h.names, h.measured⟩, ?_⟩
    rw [← h.results]
    exact hknown
  · rw [show tried = _ from htried, repliesSince_of_concat measure config (by rfl)]
    refine ⟨⟨?_, ?_, ?_, ?_, h.alike, h.names, ?_⟩, ?_⟩
    · exact congrArg (· ++ [_]) h.results
    · rw [List.map_append, List.map_append, h.calls]
      rfl
    · rw [List.map_append, List.map_singleton, ← List.concat_eq_append]
      exact List.Nodup.concat (h.results ▸ hnew) h.unique
    · rw [List.length_append, List.length_singleton, ← h.measurements]
    · intro entry hentry
      obtain ⟨own, hcall, hreply⟩ := h.measured entry hentry
      exact ⟨own, hcall, List.mem_append_left _ hreply⟩
    · exact List.mem_append_right _ List.mem_cons_self

/-- A search that begins a run stays in order. -/
lemma Orderly.begin (h : s.Orderly session replies) (hbegin : s.begin measure = .ok t) :
    t.Orderly session (replies ++ repliesSince measure s t) := by
  rcases begin_eq_ok hbegin with ⟨-, rfl⟩ | ⟨-, config, -, rfl⟩
  · rw [repliesSince_of_eq measure rfl, List.append_nil]
    exact h
  · have hmoved := h.withSession ⟨{ s.generator with phase := .stepping }, s.names⟩
      ⟨rfl, rfl, rfl⟩ (.refl false _)
    exact (hmoved.attempt measure config none).1

/-- Past the default configuration, to measure a coordinate is to try the configuration that the
session has there from then on. -/
lemma measureAt_of_stepping {c : Coordinate} (hphase : s.generator.phase = .stepping)
    (h : s.measureAt measure c = .ok t) :
    ∃ config, t.session.call (.configAt c) = (.ok (.config config), t.session) ∧
      ∃ result u, (result, u) = (s.withSession t.session).attempt measure config (some c) ∧
        t = { u with measured := u.measured.set c result } := by
  let moved := (s.session.call (.moveTo c)).2
  obtain ⟨hsession, config, hconfig, result, u, hattempt, hrecord⟩ :=
    measureAt_eq_ok_of_stepping hphase h
  have hlater : t.session = (moved.call (.configAt c)).2 := hsession
  refine ⟨config, ?_, result, u, by rw [hlater]; exact hattempt, hrecord⟩
  refine Session.call_configAt_again (s := moved) hconfig ?_ ?_
  · rw [hlater]
    exact moved.alike_call (.configAt c)
  · rw [hlater]
    exact .refl _

/-- A search past the default configuration stays in order when it measures what is wanted. -/
lemma Orderly.measureAt {c home : Coordinate} (h : s.Orderly session replies)
    (hphase : s.generator.phase = .stepping) (hwanted : s.wanted? home = some c)
    (hmeasured : s.measureAt measure c = .ok t) :
    t.Orderly session (replies ++ repliesSince measure s t) := by
  obtain ⟨goes, ht⟩ := measures_of_measureAt hmeasured
  have hsession : t.session = s.session.run [.moveTo c, .next] := ht.session
  have halike : s.generator.Alike t.session.generator := by
    rw [hsession]
    exact (s.session.alike_call (.moveTo c)).trans (Session.alike_call _ .next)
  have hnames : s.names.Assigned false t.session.names := by
    rw [hsession]
    exact s.session.run_assigned (by simp [SessionCall.OnlyAssigns])
  obtain ⟨config, hcall, result, u, hattempt, rfl⟩ := measureAt_of_stepping hphase hmeasured
  obtain ⟨htried, hreply⟩ := (h.withSession _ halike hnames).attempt measure config (some c)
  have hkept := measured_attempt measure config (some c)
    (s.withSession ({ u with measured := u.measured.set c result } : HillClimb α).session)
  rw [← hattempt] at htried hreply hkept
  have hnew : u.measured.has c = false := by
    rw [show u.measured = s.measured from hkept]
    exact (wanted?_eq_some hwanted).1
  exact htried.record hnew hcall hreply

/-- A search past the default configuration stays in order when it takes a step. -/
lemma Orderly.step {p q : Ascent α} (h : p.search.Orderly session replies)
    (hphase : p.search.generator.phase = .stepping) (hstep : Ascent.Step measure scan p q) :
    q.search.Orderly session (replies ++ repliesSince measure p.search q.search) := by
  cases hstep with
  | measure hwanted hmeasured => exact h.measureAt hphase hwanted hmeasured
  | @move home best past s =>
    have hnone : repliesSince measure s { s with steps := s.steps + 1 } = [] :=
      repliesSince_of_eq measure rfl
    show ({ s with steps := s.steps + 1 } : HillClimb α).Orderly session
      (replies ++ repliesSince measure s { s with steps := s.steps + 1 })
    rw [hnone, List.append_nil]
    exact ⟨h.results, h.calls, h.unique, h.measurements, h.alike, h.names, h.measured⟩

/-- A step past the default configuration leads on past it. -/
lemma phase_of_step {p q : Ascent α} (hphase : p.search.generator.phase = .stepping)
    (hstep : Ascent.Step measure scan p q) : q.search.generator.phase = .stepping := by
  cases hstep with
  | measure hwanted hmeasured => exact congrArg Generator.phase (generator_of_measureAt hmeasured)
  | move => exact hphase

/-- A search that was handed nothing yet begins with the default configuration of its session. -/
lemma Orderly.calls_of_begin {standard : RunConfig} (h : s.Orderly session replies)
    (hnone : s.calls = []) (hphase : s.generator.phase = .default)
    (hstandard : (session.call .standard).1 = .ok (.config standard))
    (hbegin : s.begin measure = .ok t) : t.calls = [standard] := by
  rcases begin_eq_ok hbegin with ⟨hstepping, -⟩ | ⟨-, config, hconfig, rfl⟩
  · rw [hphase] at hstepping
    cases hstepping
  · have hsame : config = standard := by
      have hagain : s.session.call .standard = (.ok (.config standard), s.session) :=
        Session.call_standard_again hstandard h.alike h.names.keeps
      rw [hagain] at hconfig
      cases hconfig
      rfl
    have hresults : s.results.map (·.1) = [] := by
      rw [h.results, ← h.calls, hnone]
      rfl
    obtain ⟨best, ⟨result, hknown, -⟩ | ⟨-, htried⟩⟩ := attempt_cases measure config none
      (s.withSession ⟨{ s.generator with phase := .stepping }, s.names⟩)
    · have hmem : config.text ∈ s.results.map (·.1) := List.mem_map_of_mem (f := (·.1)) hknown
      rw [hresults] at hmem
      cases hmem
    · rw [htried]
      show s.calls ++ [config] = [standard]
      rw [hnone, hsame, List.nil_append]

end HillClimb

/-! ### Lives -/

/-- Where a search stands in its life: between its runs, or on its way in one of them. -/
inductive Moment (α : Type) where
  | idle (s : HillClimb α)
  | running (p : Ascent α)

namespace Moment

open HillClimb

/-- The search at a moment of its life. -/
def search : Moment α → HillClimb α
  | idle s => s
  | running p => p.search

/-- The same moment with another session. -/
def withSession (session : Session) : Moment α → Moment α
  | idle s => idle (s.withSession session)
  | running p => running { p with search := p.search.withSession session }

/-- To change the session of a moment is to change that of the search. -/
lemma search_withSession (moment : Moment α) (session : Session) :
    (moment.withSession session).search = moment.search.withSession session := by
  cases moment <;> rfl

/-- In a run the generator is past the default configuration, and between the runs it is so unless
no run was handed over yet. -/
def InPhase : Moment α → Prop
  | idle s => s.generator.phase = .default → s.calls = []
  | running p => p.search.generator.phase = .stepping

/-- Calls do not bring the default configuration back. -/
lemma InPhase.withSession {moment : Moment α} (h : moment.InPhase) (c : SessionCall) :
    (moment.withSession (moment.search.session.call c).2).InPhase := by
  obtain ⟨phase, hgenerator, hphase⟩ := moment.search.session.call_generator c
  have hsame : (moment.search.session.call c).2.generator.phase = phase :=
    congrArg Generator.phase hgenerator
  cases moment with
  | idle s =>
    intro hdefault
    have hbefore : s.generator.phase = .default := by
      cases hs : s.generator.phase with
      | default => rfl
      | stepping =>
        rw [hphase.mpr (Or.inl hs)] at hsame
        exact absurd (hsame.symm.trans hdefault) (by decide)
    exact h hbefore
  | running p => exact hsame.trans (hphase.mpr (Or.inl h))

/-- Where the default configuration is next, no run was handed over yet. -/
lemma InPhase.calls_eq_nil {moment : Moment α} (h : moment.InPhase)
    (hdefault : moment.search.generator.phase = .default) : moment.search.calls = [] := by
  cases moment with
  | idle s => exact h hdefault
  | running p =>
    have hstepping : p.search.generator.phase = .stepping := h
    rw [show p.search.generator.phase = .default from hdefault] at hstepping
    cases hstepping

end Moment

namespace HillClimb

variable [Quantity α] {measure : Measure α} {scan : Scan α} {s t : HillClimb α}

/-- The moments that a search over a session comes to in its life, each with the answers that it got
by then to the runs which it handed to measure functions, under their texts.  A run begins and goes
on step by step, and it may be over after any of them, at its end or because it is blocked.  The
measure function may be another one every time, and so may the order in which the record is scanned
before a move.  At any time someone may use the generator or have the registry name a payload. -/
inductive Lives (session : Session) (constraints : RunConstraints α) (maxSteps : UInt32) :
    List (String × Option (RunMeasurement α)) → Moment α → Prop
  | new : Lives session constraints maxSteps [] (.idle (fresh session constraints maxSteps))
  | call {replies : List (String × Option (RunMeasurement α))} {moment : Moment α} {c : SessionCall}
    (h : Lives session constraints maxSteps replies moment) (hc : c.OnlyAssigns) :
    Lives session constraints maxSteps replies
      (moment.withSession (moment.search.session.call c).2)
  | begin {replies : List (String × Option (RunMeasurement α))} {measure : Measure α}
    {s t : HillClimb α} (h : Lives session constraints maxSteps replies (.idle s))
    (hbegin : s.begin measure = .ok t) :
    Lives session constraints maxSteps (replies ++ repliesSince measure s t)
      (.running ⟨t.generator.cursor, [], t⟩)
  | step {replies : List (String × Option (RunMeasurement α))} {measure : Measure α} {scan : Scan α}
    {p q : Ascent α} (h : Lives session constraints maxSteps replies (.running p))
    (hstep : Ascent.Step measure scan p q) :
    Lives session constraints maxSteps (replies ++ repliesSince measure p.search q.search)
      (.running q)
  | stop {replies : List (String × Option (RunMeasurement α))} {p : Ascent α}
    (h : Lives session constraints maxSteps replies (.running p)) :
    Lives session constraints maxSteps replies (.idle p.search)

variable {session : Session} {constraints : RunConstraints α} {maxSteps : UInt32}
  {replies : List (String × Option (RunMeasurement α))} {moment : Moment α} {p q : Ascent α}

/-- A step hands over no run, or one more. -/
lemma calls_prefix_of_step (h : Ascent.Step measure scan p q) :
    p.search.calls <+: q.search.calls := by
  cases h with
  | measure hwanted hmeasured =>
    obtain ⟨result, ht⟩ := measures_of_measureAt hmeasured
    obtain ⟨asked, hcalls, -⟩ := ht.calls
    exact ⟨asked, hcalls.symm⟩
  | move => exact List.prefix_rfl

/-- What a search comes to in a run is a moment of its life. -/
lemma Lives.reaches (h : Lives session constraints maxSteps replies (.idle s))
    (hreaches : s.Reaches measure scan p) :
    s.calls <+: p.search.calls ∧
      Lives session constraints maxSteps (replies ++ repliesSince measure s p.search)
        (.running p) := by
  refine hreaches.induction_of_begin (P := fun p => s.calls <+: p.search.calls ∧
    Lives session constraints maxSteps (replies ++ repliesSince measure s p.search)
      (.running p)) ?_ ?_
  · intro begun hbegun
    obtain ⟨asked, hcalls, -⟩ := (goesOn_of_begin hbegun).calls
    exact ⟨⟨asked, hcalls.symm⟩, h.begin hbegun⟩
  · rintro p q - hstep ⟨hgrown, hp⟩
    have hmore := calls_prefix_of_step hstep
    refine ⟨hgrown.trans hmore, ?_⟩
    rw [repliesSince_trans measure hgrown hmore, ← List.append_assoc]
    exact hp.step hstep

/-- What a run results in is a moment of the life of the search. -/
theorem Lives.run (h : Lives session constraints maxSteps replies (.idle s))
    (hrun : s.run (some measure) scan = .ok t) :
    Lives session constraints maxSteps (replies ++ repliesSince measure s t) (.idle t) := by
  obtain ⟨p, hreaches, -, rfl⟩ := exists_reaches_of_run hrun
  exact (h.reaches hreaches).2.stop

/-! ### Lives in order -/

/-- In the life of a search over a session it stays in order.  In a run its generator is past the
default configuration, and between the runs it is so unless no run was handed over yet. -/
lemma Lives.orderly (h : Lives session constraints maxSteps replies moment) :
    moment.InPhase ∧ moment.search.Orderly session replies := by
  induction h with
  | new =>
    refine ⟨fun _ => rfl, rfl, rfl, List.nodup_nil, rfl, .refl _, .refl false _, ?_⟩
    intro entry hentry
    cases hentry
  | @call replies moment c _ hc ih =>
    obtain ⟨hphase, horderly⟩ := ih
    rw [Moment.search_withSession]
    refine ⟨hphase.withSession c, horderly.withSession _ ?_ ?_⟩
    · exact moment.search.session.alike_call c
    · exact moment.search.session.call_assigned hc
  | @begin replies measure s t _ hbegin ih =>
    have hstepping : t.generator.phase = .stepping :=
      congrArg (·.generator.phase) (goesOn_of_begin hbegin).session
    exact ⟨hstepping, ih.2.begin hbegin⟩
  | step _ hstep ih =>
    obtain ⟨hphase, horderly⟩ := ih
    exact ⟨phase_of_step hphase hstep, horderly.step hphase hstep⟩
  | @stop replies p _ ih =>
    obtain ⟨hphase, horderly⟩ := ih
    refine ⟨fun hdefault => ?_, horderly⟩
    rw [show p.search.generator.phase = .stepping from hphase] at hdefault
    cases hdefault

/-- A search that was handed nothing yet, and whose generator has the default configuration next, is
handed that first in a run. -/
lemma Orderly.calls_of_reaches {standard : RunConfig} (h : s.Orderly session replies)
    (hnone : s.calls = []) (hphase : s.generator.phase = .default)
    (hstandard : (session.call .standard).1 = .ok (.config standard))
    (hreaches : s.Reaches measure scan p) : ∃ rest, p.search.calls = standard :: rest := by
  refine hreaches.induction_of_begin (P := fun p => ∃ rest, p.search.calls = standard :: rest) ?_ ?_
  · intro begun hbegun
    exact ⟨[], h.calls_of_begin hnone hphase hstandard hbegun⟩
  · rintro p q - hstep ⟨rest, hrest⟩
    obtain ⟨asked, hasked⟩ := calls_prefix_of_step hstep
    refine ⟨rest ++ asked, ?_⟩
    rw [← hasked, hrest, List.cons_append]

/-- Take a new generator over models that were built and a registry whose names were all assigned,
and any moment in the life of a search over them, with whatever measure functions it ran and in
whatever orders its record was scanned.

* No two runs that it handed to measure functions had the same text.  Each of them got one answer,
  and they are as many as it counted.
* At every coordinate in its record the generator has a configuration now, asking for which changes
  nothing.  The recorded result is the answer for the text of that, which is not the text of the
  default configuration.
* If the generator has the default configuration next, then no run was handed over yet, and in a run
  that one is handed over first. -/
theorem lives_asked_once {space : SearchSpace} {bounds : Bounds} {models : List ServedModel}
    {registry : VariantNames} {g : Generator}
    (hg : Generator.create space bounds models (some registry) = .ok g)
    (hmodels : ∀ model ∈ models, model.IsBuilt)
    (hregistry : VariantNames.empty.Assigned false registry)
    (h : Lives ⟨g, registry⟩ constraints maxSteps replies moment) :
    let s := moment.search
    ∃ standard, ((Session.mk g registry).call .standard).1 = .ok (.config standard) ∧
      ((s.calls.map (·.text)).Nodup ∧ s.calls.map (·.text) = replies.map (·.1) ∧
        s.measurements = s.calls.length) ∧
      (∀ entry ∈ s.measured, ∃ config,
        s.session.call (.configAt entry.1) = (.ok (.config config), s.session) ∧
        (config.text, entry.2) ∈ replies ∧ config.text ≠ standard.text) ∧
      (s.generator.phase = .default → s.calls = [] ∧
        ∀ measure scan p, s.Reaches measure scan p →
          ∃ rest, p.search.calls = standard :: rest) := by
  intro s
  obtain ⟨hphase, horderly⟩ := h.orderly
  obtain ⟨standard, houtcome, -⟩ := g.defaultConfig_outcome registry
  have hstandard : ((Session.mk g registry).call .standard).1 = .ok (.config standard) := by
    rw [Session.call, houtcome]
    rfl
  refine ⟨standard, hstandard, ⟨?_, horderly.calls, horderly.measurements⟩, ?_, ?_⟩
  · rw [horderly.calls]
    exact horderly.unique
  · intro entry hentry
    obtain ⟨config, hcall, hreply⟩ := horderly.measured entry hentry
    refine ⟨config, hcall, hreply, ?_⟩
    exact Session.text_ne_standard hg hmodels hregistry horderly.alike horderly.names
      (by rw [hcall]) hstandard
  · intro hdefault
    have hnone : s.calls = [] := hphase.calls_eq_nil hdefault
    exact ⟨hnone, fun measure scan p => horderly.calls_of_reaches hnone hdefault hstandard⟩

/-- Measures throughputs that rise up to the third run. -/
def rising : Measure ℚ := fun asked _ => some (RunConstraints.throughputs [min asked.length 2])

/-- A generator of batch sizes for a model that was built. -/
def stageGenerator : Generator := { batchGenerator with models := [⟨Session.stage, []⟩] }

/-- What a search comes to in two runs, if all measurements of the second one fail, its scan is
another one, and someone names a variant in between. -/
lemma exists_run_rising :
    ∃ s₁, (fresh ⟨stageGenerator, .empty⟩ [none] 32).run (some rising) = .ok s₁ ∧
      ∃ s₂, (s₁.withSession (s₁.session.call (.registry (.assign "bert" (.obj []) false))).2).run
          (some fun _ _ => none) .latestFirst = .ok s₂ ∧
        s₂.measured.coordinates = [⟨[0]⟩, ⟨[1]⟩, ⟨[2]⟩, ⟨[3]⟩] ∧ s₂.calls.length = 5 := by
  have hboth : ∃ s₁, (fresh ⟨stageGenerator, .empty⟩ [none] 32).run (some rising) = .ok s₁ ∧
      ((s₁.withSession (s₁.session.call (.registry (.assign "bert" (.obj []) false))).2).run
        (some fun _ _ => none) .latestFirst).toOption.any (fun s₂ => decide
          (s₂.measured.coordinates = [⟨[0]⟩, ⟨[1]⟩, ⟨[2]⟩, ⟨[3]⟩] ∧ s₂.calls.length = 5)) = true :=
    exists_ok_of_any (by decide +kernel)
  obtain ⟨s₁, hrun, hsecond⟩ := hboth
  exact ⟨s₁, hrun, exists_ok_of_any hsecond⟩

/-- Two runs of a search hand over five runs of different texts, the second one only a new
coordinate, whose configuration takes the name after that of someone else. -/
theorem lives_asked_once_of_rising :
    ∃ s₁ s₂, (fresh ⟨stageGenerator, .empty⟩ [none] 32).run (some rising) = .ok s₁ ∧
      (s₁.withSession (s₁.session.call (.registry (.assign "bert" (.obj []) false))).2).run
        (some fun _ _ => none) .latestFirst = .ok s₂ ∧
      s₂.measurements = 5 ∧ (s₂.calls.map (·.text)).Nodup ∧
      ∀ c ∈ [(⟨[0]⟩ : Coordinate), ⟨[1]⟩, ⟨[2]⟩, ⟨[3]⟩], ∃ config,
        s₂.session.call (.configAt c) = (.ok (.config config), s₂.session) := by
  have hg : Generator.create batchSpace {} stageGenerator.models (some .empty) =
      .ok stageGenerator := rfl
  have hbuilt : ∀ model ∈ stageGenerator.models, model.IsBuilt := by
    intro model hmodel
    rw [List.mem_singleton.mp hmodel]
    exact .create (show ServedModel.create "bert" (some fun _ => .ok Session.stage.baseline.content)
      Json.empty false = .ok ⟨Session.stage, []⟩ from rfl)
  obtain ⟨s₁, hfirst, s₂, hsecond, hmeasured, hcalls⟩ := exists_run_rising
  have hlives := ((Lives.new.run hfirst).call (c := .registry (.assign "bert" (.obj []) false))
    (by simp [SessionCall.OnlyAssigns])).run hsecond
  obtain ⟨standard, -, ⟨hunique, -, hcount⟩, hentries, -⟩ :=
    lives_asked_once hg hbuilt (.refl false .empty) hlives
  refine ⟨s₁, s₂, hfirst, hsecond, hcount.trans hcalls, hunique, ?_⟩
  intro c hc
  rw [← hmeasured] at hc
  obtain ⟨entry, hentry, rfl⟩ := List.mem_map.mp hc
  obtain ⟨config, hconfig, -⟩ := hentries entry hentry
  exact ⟨config, hconfig⟩

end HillClimb

end ServingTuner
