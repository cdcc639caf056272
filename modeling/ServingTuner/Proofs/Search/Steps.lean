import Mathlib
import ServingTuner.Proofs.Search.Measuring

/-!
# The steps of a search

A search takes two kinds of steps (`Ascent.Step`): it measures the coordinate that its home still
wants measured, or it moves home to the best coordinate around, which may depend on the order in
which a scan looks through the record.  Whatever a search runs through is reached by such steps, and
it ends where no step is left (`run_cases`).  Its loops never stop for want of tries: every
measurement takes one coordinate off those around home that are missing, and every move takes one
off the moves that are left.  There is never a choice of steps, so a search that halts on its way
has come to its result (`Reaches.run_eq`).

The only way to fail is that a coordinate that is wanted cannot be measured.
-/

namespace ServingTuner

/-! ### Steps -/

/-- A search on its way: the home it is at, the homes it was at before, the latest first, and its
state. -/
structure Ascent (α : Type) where
  home : Coordinate
  past : List Coordinate
  search : HillClimb α

namespace Ascent

open Relation HillClimb

variable {α : Type} [Quantity α] {measure : Measure α} {scan : Scan α} {p q : Ascent α}

/-- One step of a search that looks for the best coordinates in the order of a scan. -/
inductive Step (measure : Measure α) (scan : Scan α) : Ascent α → Ascent α → Prop
  | measure {home : Coordinate} {past : List Coordinate} {s t : HillClimb α} {c : Coordinate}
    (hwanted : s.wanted? home = some c) (hmeasured : s.measureAt measure c = .ok t) :
    Step measure scan ⟨home, past, s⟩ ⟨home, past, t⟩
  | move {home best : Coordinate} {past : List Coordinate} {s : HillClimb α}
    (hwanted : s.wanted? home = none)
    (hbest : s.best? scan home = some best) (hne : best ≠ home)
    (hsteps : s.steps < s.maxSteps.toNat) :
    Step measure scan ⟨home, past, s⟩ ⟨best, home :: past, { s with steps := s.steps + 1 }⟩

/-- A search that has come to its end: it wants nothing, and home is the best itself or no move is
left. -/
def Halted (scan : Scan α) (p : Ascent α) : Prop :=
  p.search.wanted? p.home = none ∧
    (p.search.best? scan p.home = some p.home ∨ p.search.maxSteps.toNat ≤ p.search.steps)

/-- A search that cannot measure what it wants. -/
def Blocked (measure : Measure α) (failure : Failure) (p : Ascent α) : Prop :=
  ∃ c, p.search.wanted? p.home = some c ∧ p.search.measureAt measure c = .error failure

/-- Steps from `p` on come to an end: either at a search for which `P` holds, which is the result,
or with the failure of one that is blocked. -/
inductive Ends (measure : Measure α) (scan : Scan α) (p : Ascent α) (P : Ascent α → Prop) :
    Except Failure (HillClimb α) → Prop
  | ok {q : Ascent α} (hsteps : ReflTransGen (Step measure scan) p q) (hq : P q) :
    Ends measure scan p P (.ok q.search)
  | error {q : Ascent α} {failure : Failure} (hsteps : ReflTransGen (Step measure scan) p q)
    (hblocked : q.Blocked measure failure) : Ends measure scan p P (.error failure)

variable {P Q : Ascent α → Prop} {result : Except Failure (HillClimb α)}

/-- Steps that come to an end after others do so from the start of those. -/
lemma Ends.of_steps (hsteps : ReflTransGen (Step measure scan) p q)
    (h : Ends measure scan q P result) : Ends measure scan p P result := by
  cases h with
  | ok hrest hq => exact .ok (hsteps.trans hrest) hq
  | error hrest hblocked => exact .error (hsteps.trans hrest) hblocked

/-- Steps go on where others ended. -/
lemma Ends.bind {next : HillClimb α → Except Failure (HillClimb α)}
    (h : Ends measure scan p P result) (hnext : ∀ q, P q → Ends measure scan q Q (next q.search)) :
    Ends measure scan p Q (result >>= next) := by
  cases h with
  | ok hsteps hq => exact (hnext _ hq).of_steps hsteps
  | error hsteps hblocked => exact .error hsteps hblocked

/-- Steps that end where something holds end where something weaker holds. -/
lemma Ends.imp (h : Ends measure scan p P result) (hPQ : ∀ q, P q → Q q) :
    Ends measure scan p Q result := by
  cases h with
  | ok hsteps hq => exact .ok hsteps (hPQ _ hq)
  | error hsteps hblocked => exact .error hsteps hblocked

/-- The result of a measurement that is wanted is one step further, or the failure of a search that
is blocked. -/
lemma ends_measureAt {home : Coordinate} {past : List Coordinate} {s : HillClimb α} {c : Coordinate}
    (hwanted : s.wanted? home = some c) :
    Ends measure scan ⟨home, past, s⟩
      (fun q => ∃ t, q = ⟨home, past, t⟩ ∧ s.measureAt measure c = .ok t)
      (s.measureAt measure c) := by
  cases hmeasured : s.measureAt measure c with
  | error failure => exact .error .refl ⟨c, hwanted, hmeasured⟩
  | ok t => exact .ok (.single (.measure hwanted hmeasured)) ⟨t, rfl, rfl⟩

/-! ### Exploring -/

/-- A search at the same home, with the same homes before and the same moves left. -/
structure Stays (p q : Ascent α) : Prop where
  home : q.home = p.home
  past : q.past = p.past
  steps : q.search.steps = p.search.steps
  maxSteps : q.search.maxSteps = p.search.maxSteps

/-- A search stays at home while it measures. -/
lemma stays_of_measureAt {home : Coordinate} {past : List Coordinate} {s t : HillClimb α}
    {c : Coordinate} (hmeasured : s.measureAt measure c = .ok t)
    (h : Stays ⟨home, past, t⟩ q) : Stays ⟨home, past, s⟩ q := by
  obtain ⟨result, ht⟩ := measures_of_measureAt hmeasured
  exact ⟨h.home, h.past, h.steps.trans ht.steps, h.maxSteps.trans ht.maxSteps⟩

/-- With as many tries as coordinates are missing, to explore is to take steps until the
neighborhood is explored or has no next coordinate. -/
lemma ends_explore (measure : Measure α) (scan : Scan α) (home : Coordinate)
    (past : List Coordinate) {tries : ℕ} {s : HillClimb α}
    (htries : (s.missing home).card ≤ tries) :
    Ends measure scan ⟨home, past, s⟩
      (fun q => Stays ⟨home, past, s⟩ q ∧ ((q.search.neighborhood home).isExplored = true ∨
        (q.search.neighborhood home).next? = none))
      (s.explore measure home tries) := by
  induction tries generalizing s with
  | zero =>
    refine .ok (q := ⟨home, past, s⟩) .refl ⟨⟨rfl, rfl, rfl, rfl⟩, ?_⟩
    by_contra hunfinished
    rw [not_or] at hunfinished
    obtain ⟨c, hc⟩ := Option.ne_none_iff_exists'.mp hunfinished.2
    have hwanted : s.wanted? home = some c := by rw [wanted?, if_neg hunfinished.1, hc]
    have hpos := Finset.card_pos.mpr ⟨c, mem_missing_of_wanted? hwanted⟩
    omega
  | succ tries ih =>
    rw [explore]
    split_ifs with hexplored
    · exact .ok (q := ⟨home, past, s⟩) .refl ⟨⟨rfl, rfl, rfl, rfl⟩, Or.inl hexplored⟩
    · cases hnext : (s.neighborhood home).next? with
      | none => exact .ok (q := ⟨home, past, s⟩) .refl ⟨⟨rfl, rfl, rfl, rfl⟩, Or.inr hnext⟩
      | some c =>
        have hwanted : s.wanted? home = some c := by rw [wanted?, if_neg hexplored, hnext]
        refine (ends_measureAt hwanted).bind ?_
        rintro q ⟨t, rfl, hmeasured⟩
        have hless := card_missing_lt hwanted hmeasured
        refine (ih (by omega)).imp ?_
        rintro q ⟨hstays, hend⟩
        exact ⟨stays_of_measureAt hmeasured hstays, hend⟩

/-- To survey the neighborhood of a home is to take steps until nothing is wanted. -/
lemma ends_survey (measure : Measure α) (scan : Scan α) (p : Ascent α) :
    Ends measure scan p (fun q => Stays p q ∧ q.search.wanted? q.home = none)
      (p.search.survey measure p.home) := by
  obtain ⟨home, past, s⟩ := p
  refine (ends_explore measure scan home past (card_missing_le s home)).bind ?_
  rintro ⟨home', past', t⟩ ⟨hstays, hend⟩
  obtain rfl : home' = home := hstays.home
  obtain rfl : past' = past := hstays.past
  split_ifs with hhome
  · refine .ok (q := ⟨home', past', t⟩) .refl ⟨hstays, ?_⟩
    show t.wanted? home' = none
    rw [wanted?]
    split_ifs with hexplored
    · rfl
    · exact hend.resolve_left hexplored
  · -- Home is next as long as it is not measured, so the neighborhood has to be explored.
    have hexplored : (t.neighborhood home').isExplored = true := by
      refine hend.resolve_right fun hnone => ?_
      exact hhome (Neighborhood.next?_eq_none hnone).1
    have hwanted : t.wanted? home' = some home' := by rw [wanted?, if_pos hexplored, if_neg hhome]
    refine (ends_measureAt hwanted).imp ?_
    rintro q ⟨u, rfl, hmeasured⟩
    have hexplored' := isExplored_of_measureAt hwanted hmeasured hexplored
    have hhome' : u.measured.has home' = true :=
      (has_of_measureAt hwanted hmeasured home').mpr (Or.inr rfl)
    obtain ⟨result, hu⟩ := measures_of_measureAt hmeasured
    refine ⟨⟨rfl, rfl, hu.steps.trans hstays.steps, hu.maxSteps.trans hstays.maxSteps⟩, ?_⟩
    show u.wanted? home' = none
    rw [wanted?, if_pos hexplored', if_pos hhome']

/-! ### Climbing -/

/-- With the moves that are left, to climb is to take steps until the search halts. -/
lemma ends_climb (measure : Measure α) (scan : Scan α) {moves : ℕ} (p : Ascent α)
    (hmoves : moves = p.search.maxSteps.toNat - p.search.steps) :
    Ends measure scan p (Halted scan) (p.search.climb measure scan moves p.home) := by
  induction moves generalizing p with
  | zero =>
    rw [climb]
    refine (ends_survey measure scan p).imp ?_
    rintro q ⟨hstays, hwanted⟩
    refine ⟨hwanted, Or.inr ?_⟩
    rw [hstays.maxSteps, hstays.steps]
    omega
  | succ moves ih =>
    rw [climb]
    refine (ends_survey measure scan p).bind ?_
    rintro ⟨home, past, t⟩ ⟨hstays, hwanted⟩
    obtain rfl : home = p.home := hstays.home
    obtain ⟨found, -, hbest⟩ := exists_best? scan (wanted?_eq_none hwanted).1
    simp only [hbest]
    split_ifs with hsame
    · exact .ok (q := ⟨p.home, past, t⟩) .refl ⟨hwanted, Or.inl (hsame ▸ hbest)⟩
    · have hsteps : t.steps = p.search.steps := hstays.steps
      have hmaxSteps : t.maxSteps = p.search.maxSteps := hstays.maxSteps
      have hmove : Step measure scan ⟨p.home, past, t⟩
          ⟨found.1, p.home :: past, { t with steps := t.steps + 1 }⟩ := by
        refine .move hwanted hbest hsame ?_
        rw [hsteps, hmaxSteps]
        omega
      refine (ih ⟨found.1, p.home :: past, { t with steps := t.steps + 1 }⟩ ?_).of_steps
        (.single hmove)
      show moves = t.maxSteps.toNat - (t.steps + 1)
      rw [hsteps, hmaxSteps]
      omega

/-! ### One way to go -/

/-- A search has at most one step to take. -/
lemma step_rightUnique (measure : Measure α) (scan : Scan α) :
    Relator.RightUnique (Step measure scan) := by
  intro p q r hq hr
  cases hq with
  | measure hwanted hmeasured =>
    cases hr with
    | measure hwanted' hmeasured' =>
      rw [hwanted] at hwanted'
      obtain rfl := Option.some.inj hwanted'
      rw [hmeasured] at hmeasured'
      rw [Except.ok.inj hmeasured']
    | move hnone =>
      rw [hwanted] at hnone
      cases hnone
  | move hnone hbest =>
    cases hr with
    | measure hwanted =>
      rw [hnone] at hwanted
      cases hwanted
    | move _ hbest' =>
      rw [hbest] at hbest'
      rw [Option.some.inj hbest']

/-- A search that has halted has no step to take. -/
lemma Halted.not_step (h : p.Halted scan) : ¬ Step measure scan p q := by
  obtain ⟨hwanted, hend⟩ := h
  intro hstep
  cases hstep with
  | measure hsome =>
    rw [hwanted] at hsome
    cases hsome
  | move _ hbest hne hsteps =>
    rcases hend with hhome | hlimit
    · rw [hbest] at hhome
      exact hne (Option.some.inj hhome)
    · exact absurd hsteps (not_lt.mpr hlimit)

/-- A search that is blocked has no step to take. -/
lemma Blocked.not_step {failure : Failure} (h : p.Blocked measure failure) :
    ¬ Step measure scan p q := by
  obtain ⟨c, hwanted, hfailed⟩ := h
  intro hstep
  cases hstep with
  | measure hsome hmeasured =>
    rw [hwanted] at hsome
    obtain rfl := Option.some.inj hsome
    rw [hfailed] at hmeasured
    cases hmeasured
  | move hnone =>
    rw [hwanted] at hnone
    cases hnone

/-- A search that is blocked has not halted. -/
lemma Blocked.not_halted {failure : Failure} (h : p.Blocked measure failure) : ¬ p.Halted scan := by
  obtain ⟨c, hwanted, -⟩ := h
  rintro ⟨hnone, -⟩
  rw [hwanted] at hnone
  cases hnone

/-- Steps leave in the record what is there. -/
lemma measured_subset_of_steps (h : ReflTransGen (Step measure scan) p q) :
    p.search.measured ⊆ q.search.measured := by
  induction h with
  | refl => exact List.Subset.refl _
  | tail _ hstep ih =>
    refine List.Subset.trans ih ?_
    cases hstep with
    | measure hwanted hmeasured =>
      obtain ⟨result, hrecord⟩ := measured_of_wanted? hwanted hmeasured
      rw [hrecord]
      exact List.subset_append_left _ _
    | move => exact List.Subset.refl _

end Ascent

/-! ### Running -/

namespace HillClimb

open Relation

variable {α : Type} [Quantity α] {measure : Measure α} {scan : Scan α} {s : HillClimb α}
  {p : Ascent α}

/-- What a search comes to on its way: from its beginning on it takes any number of steps. -/
def Reaches (measure : Measure α) (scan : Scan α) (s : HillClimb α) (p : Ascent α) : Prop :=
  ∃ begun, s.begin measure = .ok begun ∧
    ReflTransGen (Ascent.Step measure scan) ⟨begun.generator.cursor, [], begun⟩ p

/-- What holds of a search that has begun and is kept by every step holds of all that the search comes
to. -/
lemma Reaches.induction_of_begin {P : Ascent α → Prop} (h : s.Reaches measure scan p)
    (hstart : ∀ begun : HillClimb α, s.begin measure = .ok begun →
      P ⟨begun.generator.cursor, [], begun⟩)
    (hstep : ∀ p q, s.Reaches measure scan p → Ascent.Step measure scan p q → P p → P q) : P p := by
  obtain ⟨begun, hbegun, hsteps⟩ := h
  induction hsteps with
  | refl => exact hstart begun hbegun
  | tail hsteps hstepped ih => exact hstep _ _ ⟨begun, hbegun, hsteps⟩ hstepped ih

/-- What holds of a search at its beginning, whatever it measured there, and is kept by every step
holds of all that it comes to. -/
lemma Reaches.induction {P : Ascent α → Prop} (h : s.Reaches measure scan p)
    (hstart : ∀ begun : HillClimb α,
      s.GoesOn begun ⟨{ s.generator with phase := .stepping }, s.names⟩ s.measured →
        P ⟨s.generator.cursor, [], begun⟩)
    (hstep : ∀ p q, s.Reaches measure scan p → Ascent.Step measure scan p q → P p → P q) : P p := by
  refine h.induction_of_begin ?_ hstep
  intro begun hbegun
  have hgoes := goesOn_of_begin hbegun
  have hcursor : begun.generator.cursor = s.generator.cursor :=
    congrArg (·.generator.cursor) hgoes.session
  rw [hcursor]
  exact hstart begun hgoes

/-- A search that has not run yet, over a session in any state. -/
def fresh (session : Session) (constraints : RunConstraints α) (maxSteps : UInt32) : HillClimb α where
  generator := session.generator
  names := session.names
  constraints := constraints
  maxSteps := maxSteps

/-- A search runs until it halts, or until it is blocked. -/
theorem run_cases (measure : Measure α) (scan : Scan α) (s : HillClimb α) :
    (∃ p, s.Reaches measure scan p ∧ p.Halted scan ∧ s.run (some measure) scan = .ok p.search) ∨
      ∃ p failure, s.Reaches measure scan p ∧ p.Blocked measure failure ∧
        s.run (some measure) scan = .error failure := by
  obtain ⟨begun, hbegun, -⟩ := exists_begin measure s
  have hrun : s.run (some measure) scan =
      begun.climb measure scan (begun.maxSteps.toNat - begun.steps) begun.generator.cursor := by
    rw [run, hbegun]
    rfl
  have hends := Ascent.ends_climb measure scan ⟨begun.generator.cursor, [], begun⟩ rfl
  rw [hrun]
  generalize begun.climb measure scan _ _ = result at hends ⊢
  cases hends with
  | ok hsteps hhalted => exact Or.inl ⟨_, ⟨begun, hbegun, hsteps⟩, hhalted, rfl⟩
  | error hsteps hblocked => exact Or.inr ⟨_, _, ⟨begun, hbegun, hsteps⟩, hblocked, rfl⟩

/-- What a search results in is a search that halted on its way. -/
lemma exists_reaches_of_run {after : HillClimb α} (h : s.run (some measure) scan = .ok after) :
    ∃ p, s.Reaches measure scan p ∧ p.Halted scan ∧ p.search = after := by
  rcases run_cases measure scan s with ⟨p, hreaches, hhalted, hok⟩ | ⟨p, failure, -, -, hfailed⟩
  · rw [h] at hok
    exact ⟨p, hreaches, hhalted, (Except.ok.inj hok).symm⟩
  · rw [h] at hfailed
    cases hfailed

/-- Whatever a search comes to leads to where no step is left. -/
lemma Reaches.steps_to_stuck {q : Ascent α} (hp : s.Reaches measure scan p)
    (hq : s.Reaches measure scan q) (hstuck : ∀ r, ¬ Ascent.Step measure scan q r) :
    ReflTransGen (Ascent.Step measure scan) p q := by
  obtain ⟨begun, hbegun, hsteps⟩ := hp
  obtain ⟨begun', hbegun', hsteps'⟩ := hq
  rw [hbegun] at hbegun'
  obtain rfl := Except.ok.inj hbegun'
  rcases ReflTransGen.total_of_right_unique (Ascent.step_rightUnique measure scan) hsteps hsteps'
    with hpq | hqp
  · exact hpq
  · rcases hqp.cases_head with rfl | ⟨r, hstep, -⟩
    · exact .refl
    · exact absurd hstep (hstuck r)

/-- A search that halted on its way is what it results in. -/
lemma Reaches.run_eq (h : s.Reaches measure scan p) (hhalted : p.Halted scan) :
    s.run (some measure) scan = .ok p.search := by
  have hother : ∀ q, s.Reaches measure scan q → (∀ r, ¬ Ascent.Step measure scan q r) → p = q := by
    intro q hq hstuck
    rcases (h.steps_to_stuck hq hstuck).cases_head with hsame | ⟨r, hstep, -⟩
    · exact hsame
    · exact absurd hstep hhalted.not_step
  rcases run_cases measure scan s with
    ⟨q, hreaches, hend, hok⟩ | ⟨q, failure, hreaches, hblocked, -⟩
  · rw [hok, hother q hreaches fun r => hend.not_step]
  · rw [hother q hreaches fun r => hblocked.not_step] at hhalted
    exact absurd hhalted hblocked.not_halted

end HillClimb

end ServingTuner
