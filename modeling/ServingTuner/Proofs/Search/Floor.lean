import Mathlib
import ServingTuner.Proofs.Dimension.Values
import ServingTuner.Proofs.Generator.Identity
import ServingTuner.Proofs.Search.Ending
import ServingTuner.Proofs.Search.Trials

/-!
# The floor of a search

The minimum of a dimension is a floor of its values: a slot below counts as the minimum.  It is no
floor of the slots.  A search walks below it, by the radius for each of its homes at most
(`Ascent.Near`), but it finds nothing new there: a coordinate has the configuration of the one that is
raised to the floor (`Generator.configAt_floored`), and coordinates that are raised to the same one
have the same result (`run_floored`).
-/

namespace ServingTuner

/-- A coordinate has the configuration of the one that is raised to the floor. -/
lemma Generator.configAt_floored {g : Generator} {c : Coordinate}
    (h : c.size = g.space.dimensions.slots.length) :
    g.configAt (g.space.dimensions.floored c) = g.configAt c := by
  rw [configAt_def, configAt_def, DimensionSet.valuesAt_floored h]

/-! ### Configurations of the same values -/

namespace HillClimb

variable {session : Session} {g : Generator} {names : VariantNames} {c other : Coordinate}
  {config config' : RunConfig}

/-- A coordinate that has a configuration has the right size. -/
lemma MadeAt.size_eq (hsession : session.IsOver g) (h : MadeAt session names c config) :
    c.size = g.space.dimensions.slots.length := by
  obtain ⟨calls, -, hconfig, -⟩ := h
  obtain ⟨cursor, phase, hover⟩ := hsession.run calls
  by_contra hsize
  obtain ⟨failure, -, hcall⟩ := Session.call_of_size_ne (s := session.run calls)
    (c := .configAt c) rfl (by rw [hover]; exact hsize)
  rw [hcall] at hconfig
  cases hconfig

/-- Coordinates that are raised to the same one have the same configuration. -/
lemma MadeAt.config_eq (hsession : session.IsOver g) (h : MadeAt session names c config)
    (h' : MadeAt session names other config')
    (hfloored : g.space.dimensions.floored other = g.space.dimensions.floored c) :
    config = config' := by
  have hsize := h.size_eq hsession
  have hvalues : g.space.dimensions.valuesAt c = .ok _ := if_pos hsize
  have hvalues' := hvalues
  rw [← DimensionSet.valuesAt_floored hsize, ← hfloored,
    DimensionSet.valuesAt_floored (h'.size_eq hsession)] at hvalues'
  obtain ⟨calls, -, hconfig, hkept⟩ := h
  obtain ⟨calls', -, hconfig', hkept'⟩ := h'
  have hruns := Session.runsAt_of_call (hsession.run calls) hvalues hconfig hkept
  have hruns' := Session.runsAt_of_call (hsession.run calls') hvalues' hconfig' hkept'
  cases config
  cases config'
  exact congrArg RunConfig.mk (Generator.runs_of_decisions_eq hruns hruns' rfl)

end HillClimb

/-! ### How far a search walks -/

/-- No slot of the second coordinate lies further below that of the first one than `n`. -/
def Coordinate.Lowers (n : ℕ) (a b : Coordinate) : Prop :=
  List.Forall₂ (fun x y : UInt32 => x.toNat ≤ y.toNat + n) a.slots b.slots

namespace Coordinate

variable {a b c : Coordinate} {m n : ℕ}

/-- A coordinate does not lie below itself. -/
lemma Lowers.refl (n : ℕ) (a : Coordinate) : Lowers n a a :=
  List.forall₂_same.mpr fun x _ => Nat.le_add_right x.toNat n

/-- What holds within a bound holds within a greater one. -/
lemma Lowers.mono (h : Lowers m a b) (hle : m ≤ n) : Lowers n a b :=
  h.imp fun _ _ hxy => hxy.trans (Nat.add_le_add_left hle _)

/-- To go down twice is to go down by both bounds. -/
lemma Lowers.trans (h : Lowers m a b) (h' : Lowers n b c) : Lowers (m + n) a c := by
  have hlength : a.slots.length = c.slots.length := h.length_eq.trans h'.length_eq
  refine List.forall₂_iff_get.mpr ⟨hlength, fun i hi hi' => ?_⟩
  have hfirst := h.get hi (h.length_eq ▸ hi)
  have hsecond := h'.get (h.length_eq ▸ hi) hi'
  simp only [List.get_eq_getElem] at hfirst hsecond ⊢
  omega

end Coordinate

/-- No slot of a coordinate in the ball lies further than the radius below that of the center. -/
lemma Ball.lowers_of_contains {ball : Ball} {c : Coordinate} (h : ball.contains c = true) :
    Coordinate.Lowers ball.radius.toNat ball.center c := by
  obtain ⟨hsize, hdistance⟩ := contains_iff.mp h
  refine ((Coordinate.distance_le_iff hsize.symm ball.radius).mp hdistance).imp fun x y hxy => ?_
  have hgap := abs_le.mp hxy
  omega

namespace Ascent

open HillClimb

variable {α : Type} [Quantity α] {measure : Measure α} {scan : Scan α} {p q : Ascent α}
  {start : Coordinate}

/-- No home lies further below the start than by the radius for each move, and no measured coordinate
by more than the radius further. -/
structure Near (start : Coordinate) (p : Ascent α) : Prop where
  home : start.Lowers (p.search.steps * p.search.generator.space.radius.toNat) p.home
  measured : ∀ c, p.search.measured.has c = true →
    start.Lowers ((p.search.steps + 1) * p.search.generator.space.radius.toNat) c

/-- A search stays near its start. -/
lemma Near.step (hstep : Step measure scan p q) (hball : (p.search.neighborhood p.home).ball.Fits)
    (h : Near start p) : Near start q := by
  cases hstep with
  | @measure home past s t c hwanted hmeasured =>
    obtain ⟨result, ht⟩ := measures_of_measureAt hmeasured
    have hradius : t.generator.space.radius = s.generator.space.radius := by
      rw [generator_of_measureAt hmeasured]
    constructor
    · show start.Lowers (t.steps * t.generator.space.radius.toNat) home
      rw [ht.steps, hradius]
      exact h.home
    · intro other hother
      show start.Lowers ((t.steps + 1) * t.generator.space.radius.toNat) other
      rw [ht.steps, hradius]
      rcases (has_of_measureAt hwanted hmeasured other).mp hother with hold | rfl
      · exact h.measured other hold
      · rw [Nat.succ_mul]
        exact h.home.trans (Ball.lowers_of_contains (contains_of_wanted? hball hwanted))
  | @move home best past s hwanted hbest hne hsteps =>
    obtain ⟨-, hcontains⟩ := contains_of_best? hwanted hbest
    constructor
    · show start.Lowers ((s.steps + 1) * s.generator.space.radius.toNat) best
      rw [Nat.succ_mul]
      exact h.home.trans (Ball.lowers_of_contains hcontains)
    · intro other hother
      exact (h.measured other hother).mono (Nat.mul_le_mul_right _ (Nat.le_succ _))

end Ascent

namespace HillClimb

variable {α : Type} [Quantity α] {measure : Measure α} {scan : Scan α} {session : Session}
  {constraints : RunConstraints α} {maxSteps : UInt32} {p : Ascent α} {after : HillClimb α}

/-- A search that stays below the 32-bit limit stays near the cursor that it starts from. -/
lemma Reaches.near (hfits : FitsSteps session maxSteps)
    (h : (fresh session constraints maxSteps).Reaches measure scan p) :
    p.Near session.generator.cursor := by
  refine h.induction ?_ fun p q hreaches hstep hp => ?_
  · intro begun hgoes
    refine ⟨Coordinate.Lowers.refl _ _, ?_⟩
    intro c hc
    rw [show begun.measured = [] from hgoes.measured] at hc
    cases hc
  · have hsound := hreaches.sound
    exact hp.step hstep ((hreaches.thrifty hfits).ball_fits (hsound.limit ▸ hsound.steps))

/-- Take any calls on a new generator that leave its cursor at the start of the space, and a search
that has run to its end from there, with any measure function, constraints and scan.  Every slot of
a measured coordinate has a value of at least that of its dimension's minimum: the coordinate has
the configuration of the one that is raised to the minima, and all measured coordinates that are
raised to the same one have the same result.  If no slot can wrap on the way, none lies further
below its minimum than by the radius for each home. -/
theorem run_floored {space : SearchSpace} {bounds : Bounds} {models : List ServedModel}
    {registry : VariantNames} {g : Generator}
    (hg : Generator.create space bounds models (some registry) = .ok g) (calls : List SessionCall)
    (hcursor : ((Session.mk g registry).run calls).generator.cursor = space.dimensions.start)
    (hrun : (fresh ((Session.mk g registry).run calls) constraints maxSteps).run (some measure)
      scan = .ok after) {c : Coordinate} {result : Option (RunMeasurement α)}
    (hentry : (c, result) ∈ after.measured) :
    let set := space.dimensions
    List.Forall₂ (fun slot value => slot.dimension.valueAt slot.dimension.min ≤
      slot.dimension.valueAt value) set.slots c.slots ∧
    g.configAt (set.floored c) = g.configAt c ∧
    (∀ other otherResult, (other, otherResult) ∈ after.measured →
      set.floored other = set.floored c → otherResult = result) ∧
    ((∀ slot ∈ set.start.slots,
        slot.toNat + (maxSteps.toNat + 1) * space.radius.toNat ≤ 2 ^ 32 - 1) →
      List.Forall₂ (fun slot value => slot.dimension.min.toNat ≤
        value.toNat + (after.steps + 1) * space.radius.toNat) set.slots c.slots) := by
  obtain rfl : g.space = space := by rw [(Generator.create_eq_ok hg).1]
  intro set
  obtain ⟨p, hreaches, -, rfl⟩ := exists_reaches_of_run hrun
  obtain ⟨start, tries, -, hlogged⟩ := hreaches.exists_logged
  have hsession : ((Session.mk g registry).run calls).IsOver g :=
    (Session.isOver_start g registry).run calls
  have hspace : ((Session.mk g registry).run calls).generator.space = g.space := by
    obtain ⟨cursor, phase, hgenerator⟩ := hsession
    rw [hgenerator]
  obtain ⟨trial, htrial, hmade⟩ := exists_mem_of_forall₂ hlogged.entries hentry
  have hsize : c.size = set.slots.length := hmade.config.size_eq hsession
  refine ⟨?_, Generator.configAt_floored hsize, ?_, ?_⟩
  · refine List.forall₂_iff_get.mpr ⟨hsize.symm, fun i hi hi' => ?_⟩
    exact (set.slots.get ⟨i, hi⟩).dimension.valueAt_min_le _
  · intro other otherResult hother hfloored
    obtain ⟨trial', htrial', hmade'⟩ := exists_mem_of_forall₂ hlogged.entries hother
    have hconfig := hmade.config.config_eq hsession hmade'.config hfloored
    have hsame := hlogged.ledger.remembers.result_eq (List.mem_append_right _ htrial)
      (List.mem_append_right _ htrial') (congrArg RunConfig.text hconfig)
    exact hmade'.result.symm.trans (hsame.symm.trans hmade.result)
  · intro hfits
    have hfits' : FitsSteps ((Session.mk g registry).run calls) maxSteps := by
      rw [FitsSteps, hcursor, hspace]
      exact hfits
    have hmem : p.search.measured.has c = true :=
      Measured.has_iff.mpr (List.mem_map_of_mem (f := (·.1)) hentry)
    have hnear := (hreaches.near hfits').measured c hmem
    rw [hcursor, hreaches.sound.walks, hspace] at hnear
    exact List.forall₂_map_left_iff.mp hnear

/-- Exponential batch sizes of one model from 4 on, where a home and one neighbor are enough. -/
def flooredSpace : SearchSpace where
  dimensions := ⟨[⟨0, ⟨Dimension.batchSize, .exponential, 2⟩⟩], 1⟩
  radius := 1
  minMeasured := 2

/-- A generator of batch sizes from 4 on. -/
def flooredGenerator : Generator where
  space := flooredSpace
  bounds := {}
  models := batchGenerator.models
  cursor := ⟨[2]⟩

/-- Measures as throughput how many runs were measured before. -/
def counted : Measure ℚ := fun asked _ =>
  some ⟨[⟨.ofRecords "" [⟨.throughput, asked.length, 0⟩], Objectives.standard⟩]⟩

/-- What a search for batch sizes from 4 on comes to: it does not move, and of the two coordinates
that it measures one lies below the floor. -/
lemma exists_run_flooredGenerator :
    ∃ after, (fresh ⟨flooredGenerator, .empty⟩ [none] 32).run (some counted) = .ok after ∧
      after.steps = 0 ∧ after.measured.coordinates = [⟨[2]⟩, ⟨[1]⟩] := by
  exact exists_ok_of_any (by decide +kernel)

/-- The coordinate below the floor has the configuration of the start, and the same result. -/
theorem run_floored_below :
    ∃ after result, (fresh ⟨flooredGenerator, .empty⟩ [none] 32).run (some counted) = .ok after ∧
      (⟨[1]⟩, result) ∈ after.measured ∧ (⟨[2]⟩, result) ∈ after.measured ∧
      flooredGenerator.configAt ⟨[2]⟩ = flooredGenerator.configAt ⟨[1]⟩ ∧
      List.Forall₂ (fun slot value => slot.dimension.min.toNat ≤ value.toNat + 1)
        flooredSpace.dimensions.slots [(1 : UInt32)] := by
  have hg : Generator.create flooredSpace {} batchGenerator.models (some .empty) =
      .ok flooredGenerator := rfl
  obtain ⟨after, hrun, hsteps, hmeasured⟩ := exists_run_flooredGenerator
  have hentry : ∀ c ∈ [(⟨[2]⟩ : Coordinate), ⟨[1]⟩], ∃ result, (c, result) ∈ after.measured := by
    intro c hc
    rw [← hmeasured] at hc
    obtain ⟨⟨c, result⟩, hentry, rfl⟩ := List.mem_map.mp hc
    exact ⟨result, hentry⟩
  obtain ⟨result, hbelow⟩ := hentry ⟨[1]⟩ (by simp)
  obtain ⟨startResult, hstart⟩ := hentry ⟨[2]⟩ (by simp)
  obtain ⟨-, hconfig, hresults, hnear⟩ := run_floored hg [] rfl hrun hbelow
  obtain rfl : startResult = result := hresults _ _ hstart (by decide)
  have hfits : ∀ slot ∈ flooredSpace.dimensions.start.slots,
      slot.toNat + (UInt32.toNat 32 + 1) * flooredSpace.radius.toNat ≤ 2 ^ 32 - 1 := by
    intro slot hslot
    rw [List.mem_singleton.mp (show slot ∈ [2] from hslot)]
    decide +kernel
  have hsteps' := hnear hfits
  rw [hsteps] at hsteps'
  exact ⟨after, startResult, hrun, hbelow, hstart, hconfig, hsteps'⟩

/-- A search from the start of its space measures a coordinate below the floor. -/
theorem run_below_floor :
    Generator.create flooredSpace {} batchGenerator.models (some .empty) = .ok flooredGenerator ∧
    flooredGenerator.cursor = flooredSpace.dimensions.start ∧
    ∃ after, (fresh ⟨flooredGenerator, .empty⟩ [none] 32).run (some counted) = .ok after ∧
      ¬ ∀ c ∈ after.measured.coordinates,
        List.Forall₂ (fun slot value => slot.dimension.min ≤ value)
          flooredSpace.dimensions.slots c.slots := by
  obtain ⟨after, hrun, -, hmeasured⟩ := exists_run_flooredGenerator
  refine ⟨rfl, rfl, after, hrun, ?_⟩
  rw [hmeasured]
  intro hfloor
  rcases hfloor ⟨[1]⟩ (by simp) with _ | ⟨hslot, _⟩
  exact absurd hslot (by decide)

end HillClimb

end ServingTuner
