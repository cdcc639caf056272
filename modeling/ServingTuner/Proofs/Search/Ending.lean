import Mathlib
import ServingTuner.Proofs.Generator.Room
import ServingTuner.Proofs.Search.Accounts

/-!
# How a search ends

A search over a new generator always ends well (`run_halts`), whatever the measure function answers
and however runs are ranked.

Where no slot wraps on the way, every neighbor of a home lies in its neighborhood, so every
measurement brings the home closer to being explored.  Then a home costs at most `cost` measurements
(`HillClimb.Spends`), and all homes together at most that for each of them.
-/

namespace ServingTuner

/-! ### What a home costs -/

namespace HillClimb

variable {α : Type} {measure : Measure α} {s t : HillClimb α} {home c : Coordinate}
  {before : ℕ}

/-- The greatest number of measurements that are made for one home. -/
def cost (s : HillClimb α) : ℕ := max 1 s.generator.space.minMeasured.toNat

/-- Of the measured coordinates so many were measured for the homes before, and the others, all of
them around home, for home itself. -/
structure Spends (s : HillClimb α) (home : Coordinate) (before : ℕ) : Prop where
  past : before ≤ s.steps * s.cost
  around : s.measured.length ≤ before + (s.neighborhood home).measuredCount
  own : s.measured.length ≤ before + s.cost
  none : s.measured.has home = false → s.measured.length = before

/-- What is wanted lies in the ball around home, where no slot wraps. -/
lemma contains_of_wanted? (hball : (s.neighborhood home).ball.Fits)
    (hwanted : s.wanted? home = some c) : (s.neighborhood home).ball.contains c = true := by
  obtain ⟨-, rfl | ⟨-, -, hneighbor⟩⟩ := wanted?_eq_some hwanted
  · exact Ball.contains_center _
  · exact hball.contains_of_mem_neighbors hneighbor

/-- While something is wanted, home has not cost all that it may. -/
lemma Spends.lt_of_wanted? (h : s.Spends home before) (hwanted : s.wanted? home = some c) :
    s.measured.length < before + s.cost := by
  have hone : 1 ≤ s.cost := le_max_left _ _
  obtain ⟨hnew, rfl | ⟨-, hexplored, -⟩⟩ := wanted?_eq_some hwanted
  · rw [h.none hnew]
    omega
  · have hcount : (s.neighborhood home).measuredCount < (s.neighborhood home).minMeasured.toNat := by
      simpa [Neighborhood.isExplored] using hexplored
    have hminimum : (s.neighborhood home).minMeasured.toNat ≤ s.cost := le_max_right _ _
    have haround := h.around
    omega

/-- A search that moves has spent on its home no more than it may. -/
lemma Spends.move (h : s.Spends home before) (best : Coordinate) :
    ({ s with steps := s.steps + 1 } : HillClimb α).Spends best s.measured.length := by
  refine ⟨?_, Nat.le_add_right _ _, Nat.le_add_right _ _, fun _ => rfl⟩
  calc s.measured.length ≤ before + s.cost := h.own
    _ ≤ s.steps * s.cost + s.cost := Nat.add_le_add_right h.past _
    _ = (s.steps + 1) * s.cost := (Nat.succ_mul _ _).symm

variable [Quantity α]

/-- To measure what is wanted is paid for by home. -/
lemma Spends.of_measureAt (h : s.Spends home before) (hball : (s.neighborhood home).ball.Fits)
    (hwanted : s.wanted? home = some c) (hmeasured : s.measureAt measure c = .ok t) :
    t.Spends home before := by
  obtain ⟨result, ht⟩ := measures_of_measureAt hmeasured
  have hcost : t.cost = s.cost := by rw [cost, cost, generator_of_measureAt hmeasured]
  have hlength := length_measured_of_measureAt hwanted hmeasured
  have hcount := measuredCount_of_measureAt hwanted hmeasured
  rw [if_pos (contains_of_wanted? hball hwanted)] at hcount
  constructor
  · rw [ht.steps, hcost]
    exact h.past
  · have haround := h.around
    omega
  · have hless := h.lt_of_wanted? hwanted
    omega
  · -- Home is the first that it wants, so it is measured now.
    have hhome : t.measured.has home = true := by
      rw [has_of_measureAt hwanted hmeasured]
      obtain ⟨-, rfl | ⟨hhome, -⟩⟩ := wanted?_eq_some hwanted
      · exact Or.inr rfl
      · exact Or.inl hhome
    simp [hhome]

end HillClimb

/-! ### Searches on their way -/

namespace Ascent

open HillClimb

variable {α : Type} {measure : Measure α} {scan : Scan α} {p q : Ascent α}

/-- All entities have names left after the next run, if there is one. -/
def HasRoom (p : Ascent α) : Prop :=
  ∀ c, p.search.wanted? p.home = some c → (p.search.session.run [.moveTo c, .next]).names.HasRoom

/-- A search that stays below the 32-bit limit with all moves that are left, and that has spent on
its homes no more than it may. -/
structure Thrifty (p : Ascent α) : Prop where
  fits : ∀ slot ∈ p.home.slots, slot.toNat + (p.search.maxSteps.toNat + 1 - p.search.steps) *
    p.search.generator.space.radius.toNat ≤ 2 ^ 32 - 1
  spends : ∃ before, p.search.Spends p.home before

/-- No slot wraps around the home of a thrifty search. -/
lemma Thrifty.ball_fits (h : Thrifty p) (hsteps : p.search.steps ≤ p.search.maxSteps.toNat) :
    (p.search.neighborhood p.home).ball.Fits := by
  intro slot hslot
  have hfits := h.fits slot hslot
  have hradius := Nat.le_mul_of_pos_left p.search.generator.space.radius.toNat
    (show 0 < p.search.maxSteps.toNat + 1 - p.search.steps by omega)
  show slot.toNat + p.search.generator.space.radius.toNat ≤ 2 ^ 32 - 1
  omega

/-- A search that goes on from a session with the same models, and that has taken of every entity no
more names than its runs may. -/
structure Named (session : Session) (p : Ascent α) : Prop where
  models : p.search.generator.models = session.generator.models
  size : ∀ entity, (p.search.names.entity entity).size ≤ (session.names.entity entity).size +
    p.search.measured.length * session.generator.namesPerRun

/-- The runs of a search may take as many names as before. -/
lemma Named.namesPerRun {session : Session} (h : Named session p) :
    p.search.generator.namesPerRun = session.generator.namesPerRun := by
  rw [Generator.namesPerRun, Generator.units, h.models]
  rfl

variable [Quantity α]

/-- While names are left a search is not blocked. -/
lemma Sized.not_blocked (h : p.Sized) (hroom : p.HasRoom) (failure : Failure) :
    ¬ p.Blocked measure failure := by
  rintro ⟨c, hwanted, hfailed⟩
  obtain ⟨t, hok⟩ := exists_measureAt measure (h.size_of_wanted? hwanted) (hroom c hwanted)
  rw [hok] at hfailed
  cases hfailed

/-- A step keeps a search thrifty. -/
lemma Thrifty.step {space : SearchSpace} {constraints : RunConstraints α} {maxSteps : UInt32}
    (hstep : Step measure scan p q) (hsound : Sound space constraints maxSteps p) (h : Thrifty p) :
    Thrifty q := by
  have hball := h.ball_fits (hsound.limit ▸ hsound.steps)
  obtain ⟨before, hspends⟩ := h.spends
  cases hstep with
  | @measure home past s t c hwanted hmeasured =>
    obtain ⟨result, ht⟩ := measures_of_measureAt hmeasured
    refine ⟨?_, before, hspends.of_measureAt hball hwanted hmeasured⟩
    show ∀ slot ∈ home.slots, slot.toNat + (t.maxSteps.toNat + 1 - t.steps) *
      t.generator.space.radius.toNat ≤ 2 ^ 32 - 1
    rw [ht.maxSteps, ht.steps, generator_of_measureAt hmeasured]
    exact h.fits
  | @move home best past s hwanted hbest hne hsteps =>
    obtain ⟨-, hcontains⟩ := contains_of_best? hwanted hbest
    refine ⟨?_, s.measured.length, hspends.move best⟩
    intro slot hslot
    obtain ⟨own, hown, hle⟩ := Ball.exists_le_of_contains hcontains hslot
    have hfits : own.toNat + (s.maxSteps.toNat + 1 - s.steps) * s.generator.space.radius.toNat ≤
        2 ^ 32 - 1 := h.fits own hown
    have hle' : slot.toNat ≤ own.toNat + s.generator.space.radius.toNat := hle
    have hleft : s.maxSteps.toNat + 1 - s.steps = s.maxSteps.toNat + 1 - (s.steps + 1) + 1 := by
      omega
    rw [hleft, Nat.succ_mul] at hfits
    show slot.toNat + (s.maxSteps.toNat + 1 - (s.steps + 1)) * s.generator.space.radius.toNat ≤ _
    omega

/-- A step takes no more names than it may. -/
lemma Named.step {session : Session} (hstep : Step measure scan p q) (h : Named session p) :
    Named session q := by
  cases hstep with
  | @measure home past s t c hwanted hmeasured =>
    obtain ⟨result, ht⟩ := measures_of_measureAt hmeasured
    constructor
    · show t.generator.models = _
      rw [generator_of_measureAt hmeasured]
      exact h.models
    · intro entity
      have hrun := s.session.size_run_next_le c entity
      rw [show s.session.generator.namesPerRun = _ from h.namesPerRun] at hrun
      have hnames : t.names = (s.session.run [.moveTo c, .next]).names :=
        congrArg (·.names) ht.session
      show (t.names.entity entity).size ≤
        (session.names.entity entity).size + t.measured.length * session.generator.namesPerRun
      rw [length_measured_of_measureAt hwanted hmeasured, hnames, Nat.succ_mul]
      exact hrun.trans ((Nat.add_le_add_right (h.size entity) _).trans_eq (Nat.add_assoc _ _ _))
  | move hwanted hbest hne hsteps => exact ⟨h.models, h.size⟩

end Ascent

/-! ### Searches over a new generator -/

namespace HillClimb

open Ascent

variable {α : Type} [Quantity α] {measure : Measure α} {scan : Scan α} {session : Session}
  {constraints : RunConstraints α} {maxSteps : UInt32} {p : Ascent α}

/-- All slots of a session's cursor stay below the 32-bit limit when they are moved by the radius
once for every home that a search may come to. -/
def FitsSteps (session : Session) (maxSteps : UInt32) : Prop :=
  ∀ slot ∈ session.generator.cursor.slots,
    slot.toNat + (maxSteps.toNat + 1) * session.generator.space.radius.toNat ≤ 2 ^ 32 - 1

/-- A search that stays below the 32-bit limit is thrifty. -/
lemma Reaches.thrifty (hfits : FitsSteps session maxSteps)
    (h : (fresh session constraints maxSteps).Reaches measure scan p) : p.Thrifty := by
  refine h.induction ?_ fun p q hreaches hstep hp => hp.step hstep hreaches.sound
  intro begun hgoes
  have hspace : begun.generator.space = session.generator.space :=
    congrArg (·.generator.space) hgoes.session
  have hmeasured : begun.measured.length = 0 := by
    rw [hgoes.measured]
    rfl
  constructor
  · show ∀ slot ∈ session.generator.cursor.slots, slot.toNat +
      (begun.maxSteps.toNat + 1 - begun.steps) * begun.generator.space.radius.toNat ≤ 2 ^ 32 - 1
    rw [hgoes.maxSteps, hgoes.steps, hspace]
    exact hfits
  · refine ⟨0, Nat.zero_le _, ?_, ?_, fun _ => hmeasured⟩
    · exact hmeasured.le.trans (Nat.zero_le _)
    · exact hmeasured.le.trans (Nat.zero_le _)

/-- A search has taken no more names than its runs may. -/
lemma Reaches.named (h : (fresh session constraints maxSteps).Reaches measure scan p) :
    p.Named session := by
  refine h.induction ?_ fun p q _ hstep hp => hp.step hstep
  intro begun hgoes
  refine ⟨congrArg (·.generator.models) hgoes.session, fun entity => ?_⟩
  have hnames : begun.names = session.names := congrArg (·.names) hgoes.session
  show (begun.names.entity entity).size ≤ _
  rw [hnames]
  exact Nat.le_add_right _ _

/-- A search that stays below the 32-bit limit measures no more coordinates than all its homes may
cost. -/
lemma Reaches.length_le (hfits : FitsSteps session maxSteps)
    (h : (fresh session constraints maxSteps).Reaches measure scan p) :
    let limit := (maxSteps.toNat + 1) * max 1 session.generator.space.minMeasured.toNat
    p.search.measured.length ≤ limit ∧
      ∀ c, p.search.wanted? p.home = some c → p.search.measured.length < limit := by
  intro limit
  have hsound := h.sound
  obtain ⟨before, hspends⟩ := (h.thrifty hfits).spends
  have hcost : p.search.cost = max 1 session.generator.space.minMeasured.toNat := by
    rw [cost, hsound.walks]
  have hlimit : before + p.search.cost ≤ limit := by
    calc before + p.search.cost ≤ p.search.steps * p.search.cost + p.search.cost :=
          Nat.add_le_add_right hspends.past _
      _ = (p.search.steps + 1) * p.search.cost := (Nat.succ_mul _ _).symm
      _ ≤ (maxSteps.toNat + 1) * p.search.cost :=
          Nat.mul_le_mul_right _ (Nat.succ_le_succ hsound.steps)
      _ = limit := by rw [hcost]
  exact ⟨hspends.own.trans hlimit, fun c hwanted => (hspends.lt_of_wanted? hwanted).trans_le hlimit⟩

/-- A search that stays below the 32-bit limit never runs out of names if all entities have names for
as many runs as all its homes may cost. -/
theorem Reaches.hasRoom (hfits : FitsSteps session maxSteps)
    (hnames : ∀ entity, (session.names.entity entity).size +
      (maxSteps.toNat + 1) * max 1 session.generator.space.minMeasured.toNat *
        session.generator.namesPerRun < UInt64.size)
    (h : (fresh session constraints maxSteps).Reaches measure scan p) : p.HasRoom := by
  intro c hwanted entity
  have hless := (h.length_le hfits).2 c hwanted
  have hnamed := h.named
  have hrun := p.search.session.size_run_next_le c entity
  rw [show p.search.session.generator.namesPerRun = _ from hnamed.namesPerRun] at hrun
  refine lt_of_le_of_lt ?_ (hnames entity)
  calc ((p.search.session.run [.moveTo c, .next]).names.entity entity).size
      ≤ (p.search.names.entity entity).size + session.generator.namesPerRun := hrun
    _ ≤ (session.names.entity entity).size +
          p.search.measured.length * session.generator.namesPerRun +
            session.generator.namesPerRun := Nat.add_le_add_right (hnamed.size entity) _
    _ = (session.names.entity entity).size +
          (p.search.measured.length + 1) * session.generator.namesPerRun := by ring
    _ ≤ _ := Nat.add_le_add_left (Nat.mul_le_mul_right _ hless) _

/-- Take any calls on a new generator, and then a search that may move home `maxSteps` times.  While
all entities have names left, the search runs to its end, whatever the measure function answers,
whatever the constraints are and in whatever order the record is scanned.  It comes there step by
step, and whatever it comes to on its way leads there.  It has halted then: nothing is wanted around
its last home, and this is the best itself or no move is left.  It has moved home no more often than
it may.  If no slot can wrap on the way, it has measured no more than `max 1 minMeasured`
coordinates for each home that it may come to, no coordinate twice, and it has asked the measure
function at most once more than that. -/
theorem run_halts {space : SearchSpace} {bounds : Bounds} {models : List ServedModel}
    {registry : VariantNames} {g : Generator}
    (hg : Generator.create space bounds models (some registry) = .ok g) (calls : List SessionCall)
    (constraints : RunConstraints α) (maxSteps : UInt32) (measure : Measure α) (scan : Scan α)
    (hroom : ∀ p, (fresh ((Session.mk g registry).run calls) constraints maxSteps).Reaches
      measure scan p → p.HasRoom) :
    let session := (Session.mk g registry).run calls
    let search : HillClimb α := fresh session constraints maxSteps
    ∃ p, search.Reaches measure scan p ∧ p.Halted scan ∧
      (∀ q, search.Reaches measure scan q → Relation.ReflTransGen (Step measure scan) q p) ∧
      let after := p.search
      search.run (some measure) scan = .ok after ∧
      after.steps ≤ maxSteps.toNat ∧ after.calls.length = after.measurements ∧
      ((∀ slot ∈ session.generator.cursor.slots,
          slot.toNat + (maxSteps.toNat + 1) * space.radius.toNat ≤ 2 ^ 32 - 1) →
        let limit := (maxSteps.toNat + 1) * max 1 space.minMeasured.toNat
        after.measured.coordinates.Nodup ∧ after.measured.length ≤ limit ∧
          after.measurements ≤ limit + 1) := by
  intro session search
  obtain ⟨phase, hgenerator, -⟩ := Session.run_new hg calls
  have hspace : session.generator.space = space := congrArg Generator.space hgenerator
  have hsize : session.generator.cursor.size = session.generator.space.dimensions.slots.length := by
    rw [hspace]
    exact Session.size_cursor_run hg calls
  rcases run_cases measure scan search with
    ⟨p, hreaches, hhalted, hrun⟩ | ⟨p, failure, hreaches, hblocked, -⟩
  · have hsound := hreaches.sound
    refine ⟨p, hreaches, hhalted, fun q hq => hq.steps_to_stuck hreaches fun r => hhalted.not_step,
      hrun, hsound.steps, hsound.calls, ?_⟩
    intro hfits limit
    rw [← hspace] at hfits
    obtain ⟨hlength, -⟩ := hreaches.length_le hfits
    rw [hspace] at hlength
    exact ⟨hsound.unique, hlength, hsound.measurements.trans (Nat.succ_le_succ hlength)⟩
  · exact absurd hblocked ((hreaches.sized hsize).not_blocked (hroom p hreaches) failure)

/-- A search where every run fails still comes to its end, also if it starts past the default
configuration and looks at the latest coordinates first. -/
theorem run_halts_without_results :
    let session := (Session.mk batchGenerator .empty).run [.next, .moveTo ⟨[2]⟩]
    let search : HillClimb ℚ := fresh session [] 2
    ∃ p, search.Reaches (fun _ _ => none) .latestFirst p ∧ p.Halted .latestFirst ∧
      search.run (some fun _ _ => none) .latestFirst = .ok p.search ∧
      p.search.steps ≤ 2 ∧ p.search.measured.length ≤ 9 ∧ p.search.measurements ≤ 10 := by
  intro session search
  have hg : Generator.create batchSpace {} batchGenerator.models (some .empty) =
      .ok batchGenerator := rfl
  have hfits : FitsSteps session 2 := by
    intro slot hslot
    rw [List.mem_singleton.mp (show slot ∈ [2] from hslot)]
    decide +kernel
  have hroom : ∀ p, search.Reaches (fun _ _ => none) .latestFirst p → p.HasRoom := by
    intro p hreaches
    refine hreaches.hasRoom hfits fun entity => ?_
    show 0 + 3 * 3 * 2 < UInt64.size
    decide
  obtain ⟨p, hreaches, hhalted, -, hrun, hsteps, -, hfit⟩ :=
    run_halts hg [.next, .moveTo ⟨[2]⟩] ([] : RunConstraints ℚ) 2 (fun _ _ => none) .latestFirst
      hroom
  obtain ⟨-, hmeasured, hmeasurements⟩ := hfit hfits
  exact ⟨p, hreaches, hhalted, hrun, hsteps, hmeasured, hmeasurements⟩

end HillClimb

end ServingTuner
