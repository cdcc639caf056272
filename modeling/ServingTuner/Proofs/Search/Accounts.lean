import Mathlib
import ServingTuner.Proofs.Search.Steps

/-!
# The accounts of a search

A search on its way keeps its accounts in order (`Ascent.Sound`): it stays the search that was asked
for, it moves no more often than it may, no coordinate is measured twice, and the measure function is
asked at most once for each of them and once for the default configuration.
-/

namespace ServingTuner

namespace Ascent

open HillClimb

variable {α : Type} {measure : Measure α} {scan : Scan α} {p q : Ascent α} {c : Coordinate}

/-- The accounts of a search on its way: it is still the search that was asked for, it has moved no
more often than it may, no coordinate was measured twice, and at most one run was handed to the
measure function for each coordinate and one besides. -/
structure Sound (space : SearchSpace) (constraints : RunConstraints α) (maxSteps : UInt32)
    (p : Ascent α) : Prop where
  walks : p.search.generator.space = space
  ranks : p.search.constraints = constraints
  limit : p.search.maxSteps = maxSteps
  steps : p.search.steps ≤ maxSteps.toNat
  unique : p.search.measured.coordinates.Nodup
  calls : p.search.calls.length = p.search.measurements
  measurements : p.search.measurements ≤ p.search.measured.length + 1

/-- Home has a slot for every dimension. -/
def Sized (p : Ascent α) : Prop := p.home.size = p.search.generator.space.dimensions.slots.length

/-- What is wanted has the right size. -/
lemma Sized.size_of_wanted? (h : p.Sized) (hwanted : p.search.wanted? p.home = some c) :
    c.size = p.search.generator.space.dimensions.slots.length := by
  rw [← h]
  obtain ⟨-, rfl | ⟨-, -, hneighbor⟩⟩ := wanted?_eq_some hwanted
  · rfl
  · exact Ball.size_of_mem_neighbors hneighbor

variable [Quantity α]

/-- A step keeps the accounts in order. -/
lemma Sound.step {space : SearchSpace} {constraints : RunConstraints α} {maxSteps : UInt32}
    (hstep : Step measure scan p q) (h : Sound space constraints maxSteps p) :
    Sound space constraints maxSteps q := by
  cases hstep with
  | @measure home past s t c hwanted hmeasured =>
    obtain ⟨result, ht⟩ := measures_of_measureAt hmeasured
    obtain ⟨asked, hcalls, hasked, hcount⟩ := ht.calls
    have hlength := length_measured_of_measureAt hwanted hmeasured
    refine ⟨?_, ht.constraints.trans h.ranks, ht.maxSteps.trans h.limit, ?_,
      nodup_of_measureAt hwanted hmeasured h.unique, ?_, ?_⟩
    · show t.generator.space = space
      rw [generator_of_measureAt hmeasured]
      exact h.walks
    · show t.steps ≤ maxSteps.toNat
      rw [ht.steps]
      exact h.steps
    · show t.calls.length = t.measurements
      rw [hcalls, hcount, List.length_append]
      exact congrArg (· + asked.length) h.calls
    · show t.measurements ≤ t.measured.length + 1
      have hmeasurements : s.measurements ≤ s.measured.length + 1 := h.measurements
      omega
  | @move home best past s hwanted hbest hne hsteps =>
    exact ⟨h.walks, h.ranks, h.limit, h.limit ▸ hsteps, h.unique, h.calls, h.measurements⟩

/-- A step leads from a home of the right size to one of the right size. -/
lemma Sized.step (hstep : Step measure scan p q) (h : p.Sized) : q.Sized := by
  cases hstep with
  | @measure home past s t c hwanted hmeasured =>
    show home.size = t.generator.space.dimensions.slots.length
    rw [generator_of_measureAt hmeasured]
    exact h
  | @move home best past s hwanted hbest hne hsteps =>
    obtain ⟨-, hcontains⟩ := contains_of_best? hwanted hbest
    exact (Ball.contains_iff.mp hcontains).1.trans h

end Ascent

/-! ### Searches that have not run yet -/

namespace HillClimb

variable {α : Type} [Quantity α] {measure : Measure α} {scan : Scan α} {session : Session}
  {constraints : RunConstraints α} {maxSteps : UInt32} {p : Ascent α}

/-- A search keeps its accounts in order. -/
lemma Reaches.sound (h : (fresh session constraints maxSteps).Reaches measure scan p) :
    p.Sound session.generator.space constraints maxSteps := by
  refine h.induction ?_ fun p q _ hstep hp => hp.step hstep
  intro begun hgoes
  obtain ⟨asked, hcalls, hasked, hcount⟩ := hgoes.calls
  refine ⟨congrArg (·.generator.space) hgoes.session, hgoes.constraints, hgoes.maxSteps, ?_, ?_, ?_,
    ?_⟩
  · show begun.steps ≤ maxSteps.toNat
    rw [hgoes.steps]
    exact Nat.zero_le _
  · show begun.measured.coordinates.Nodup
    rw [hgoes.measured]
    exact List.nodup_nil
  · show begun.calls.length = begun.measurements
    rw [hcalls, hcount]
    exact (Nat.zero_add _).symm
  · show begun.measurements ≤ begun.measured.length + 1
    rw [hcount, hgoes.measured]
    exact (Nat.zero_add _).le.trans hasked

/-- A search that starts from a cursor of the right size has homes of the right size only. -/
lemma Reaches.sized
    (hsize : session.generator.cursor.size = session.generator.space.dimensions.slots.length)
    (h : (fresh session constraints maxSteps).Reaches measure scan p) : p.Sized := by
  refine h.induction ?_ fun p q _ hstep hp => hp.step hstep
  intro begun hgoes
  show session.generator.cursor.size = begun.generator.space.dimensions.slots.length
  rw [show begun.generator.space = _ from congrArg (·.generator.space) hgoes.session]
  exact hsize

/-- A search over a new generator has homes of the right size only. -/
lemma Reaches.sized_of_create {space : SearchSpace} {bounds : Bounds} {models : List ServedModel}
    {registry : VariantNames} {g : Generator}
    (hg : Generator.create space bounds models (some registry) = .ok g) {calls : List SessionCall}
    (h : (fresh ((Session.mk g registry).run calls) constraints maxSteps).Reaches measure scan p) :
    p.Sized := by
  obtain ⟨phase, hgenerator, -⟩ := Session.run_new hg calls
  have hspace : ((Session.mk g registry).run calls).generator.space = space :=
    congrArg Generator.space hgenerator
  refine h.sized ?_
  rw [hspace]
  exact Session.size_cursor_run hg calls

/-! ### A small space -/

/-- What a computation comes to can be found out. -/
lemma exists_ok_of_any {β : Type} {P : β → Prop} [DecidablePred P] {result : Except Failure β}
    (h : result.toOption.any (fun b => decide (P b)) = true) : ∃ b, result = .ok b ∧ P b := by
  cases result with
  | error failure => cases h
  | ok b => exact ⟨b, rfl, of_decide_eq_true h⟩

/-- Exponential batch sizes of one model, of which two neighbors can be measured from most homes. -/
def batchSpace : SearchSpace where
  dimensions := ⟨[⟨0, ⟨Dimension.batchSize, .exponential, 0⟩⟩], 1⟩
  radius := 1

/-- A generator of batch sizes for one model. -/
def batchGenerator : Generator where
  space := batchSpace
  bounds := {}
  models := [
    { name := "bert", baseline := ⟨.obj [("max_batch_size", .int 8), ("name", .str "bert")]⟩,
      flags := [], cpuOnly := false }]
  cursor := ⟨[0]⟩

end HillClimb

/-- The order in which the latest coordinates come first. -/
def Scan.latestFirst {α : Type} : Scan α :=
  ⟨fun _ measured => measured.reverse, fun _ => List.reverse_perm⟩

end ServingTuner
