import Mathlib
import ServingTuner.Proofs.Generator.Session

/-!
# How many names a run takes

Naming work adds a bounded number of names to every entity (`Naming.AddsAtMost`): to name a payload
adds one at most, and the bounds of steps add up.  So a run takes no more names of any entity than
there are search units and models (`Session.size_run_next_le`), and an entity that is far enough from
running out of names stays so for a known number of runs.
-/

namespace ServingTuner

namespace Naming

variable {α β : Type} {work : Naming α} {m n : ℕ}

/-- Whatever comes of the work, every entity has at most so many names more after it. -/
def AddsAtMost (work : Naming α) (n : ℕ) : Prop :=
  ∀ names entity,
    ((work.outcome names).2.entity entity).size ≤ (names.entity entity).size + n

/-- A greater bound is a bound, too. -/
lemma AddsAtMost.mono (h : work.AddsAtMost m) (hle : m ≤ n) : work.AddsAtMost n :=
  fun names entity => (h names entity).trans (Nat.add_le_add_left hle _)

/-- To give an answer adds no name. -/
lemma addsAtMost_pure (a : α) : (pure a : Naming α).AddsAtMost 0 := fun _ _ => le_rfl

/-- To name a payload adds one name at most. -/
lemma addsAtMost_assign (entity : String) (payload : Json) (isDefault : Bool) :
    (assign entity payload isDefault).AddsAtMost 1 :=
  fun names => VariantNames.size_call_le names (.assign entity payload isDefault)

/-- The bounds of two steps add up. -/
lemma AddsAtMost.bind {next : α → Naming β} (h : work.AddsAtMost m)
    (hnext : ∀ a, (next a).AddsAtMost n) : (work >>= next).AddsAtMost (m + n) := by
  intro names entity
  have hfirst := h names entity
  rw [outcome_bind]
  rcases houtcome : work.outcome names with ⟨failure | a, after⟩
  · rw [houtcome] at hfirst
    exact hfirst.trans (by omega)
  · have hrest := hnext a after entity
    rw [houtcome] at hfirst
    dsimp only at hfirst ⊢
    omega

end Naming

namespace Generator

variable {g : Generator}

/-- To name a configuration adds one name at most. -/
lemma nameConfig_addsAtMost (entity : String) (config : ModelConfig) (isDefault : Bool) :
    (nameConfig entity config isDefault).AddsAtMost 1 :=
  (Naming.addsAtMost_assign entity config.content isDefault).bind
    fun name => Naming.addsAtMost_pure (config.withName name)

/-- To name drafts adds one name for each at most. -/
lemma nameDrafts_addsAtMost (isDefault : Bool) (drafts : List Draft) :
    (nameDrafts isDefault drafts).AddsAtMost drafts.length := by
  induction drafts with
  | nil => exact Naming.addsAtMost_pure []
  | cons draft rest ih =>
    have hcount : (draft :: rest).length = 1 + (rest.length + 0) := by
      rw [List.length_cons]
      omega
    rw [hcount]
    exact (nameConfig_addsAtMost draft.entity draft.config isDefault).bind fun config =>
      ih.bind fun others => Naming.addsAtMost_pure (config :: others)

/-- The run of a model takes a name for each draft, and one more for an ensemble. -/
lemma modelRun_addsAtMost (g : Generator) (isDefault : Bool) (model : ServedModel)
    (drafts : List Draft) :
    (g.modelRun isDefault model drafts).AddsAtMost (drafts.length + 1) := by
  cases hcomposite : model.isComposite with
  | true =>
    rw [modelRun_of_composite hcomposite]
    exact (nameDrafts_addsAtMost isDefault drafts).bind fun variants =>
      (nameConfig_addsAtMost model.name _ isDefault).bind fun config => Naming.addsAtMost_pure _
  | false =>
    rw [modelRun_of_plain hcomposite]
    exact ((nameDrafts_addsAtMost isDefault drafts).bind fun variants =>
      Naming.addsAtMost_pure _).mono (Nat.le_succ _)

/-- The runs of models take a name for each draft and each model. -/
lemma modelRuns_addsAtMost (g : Generator) (isDefault : Bool)
    (models : List (ServedModel × List Draft)) :
    (g.modelRuns isDefault models).AddsAtMost
      ((models.map fun pair => pair.2.length + 1).sum) := by
  induction models with
  | nil => exact Naming.addsAtMost_pure []
  | cons pair rest ih =>
    rw [List.map_cons, List.sum_cons]
    exact (modelRun_addsAtMost g isDefault pair.1 pair.2).bind fun run =>
      ih.bind fun others => Naming.addsAtMost_pure (run :: others)

/-- All drafts at given values are no more than the search units. -/
lemma sum_drafts_le (g : Generator) (models : List ServedModel) (values : List UnitValues) :
    ((g.drafts models values).map fun pair => pair.2.length + 1).sum ≤
      countUnits models + models.length := by
  induction models generalizing values with
  | nil => exact le_rfl
  | cons model rest ih =>
    have hdrafts : (List.zipWith g.draft model.units values).length ≤ model.unitCount := by
      rw [List.length_zipWith]
      exact min_le_left _ _
    have hrest := ih (values.drop model.unitCount)
    rw [drafts_cons, List.map_cons, List.sum_cons, countUnits_cons, List.length_cons]
    dsimp only
    omega

/-- The greatest number of names that a run takes of an entity: one for each search unit and one for
each model. -/
def namesPerRun (g : Generator) : ℕ := g.units + g.models.length

/-- The configuration at a coordinate takes no more names than a run may. -/
lemma configAt_addsAtMost (g : Generator) (c : Coordinate) :
    (g.configAt c).AddsAtMost g.namesPerRun := by
  cases hvalues : g.space.dimensions.valuesAt c with
  | error failure =>
    intro names entity
    rw [configAt_def, hvalues, Naming.outcome_bind, Naming.outcome_lift]
    exact Nat.le_add_right _ _
  | ok values =>
    rw [configAt_def, hvalues]
    exact ((modelRuns_addsAtMost g false _).bind fun runs => Naming.addsAtMost_pure _).mono
      (sum_drafts_le g g.models values)

end Generator

/-- The next configuration takes no more names than a run may. -/
lemma Session.size_next_le (s : Session) (entity : String) :
    ((s.call .next).2.names.entity entity).size ≤
      (s.names.entity entity).size + s.generator.namesPerRun := by
  cases hphase : s.generator.phase with
  | default =>
    have hstandard := ((s.generator.defaultConfig_yields).assigned s.names).eq_of_default
    rw [call_next_of_default hphase]
    show ((s.generator.defaultConfig.outcome s.names).2.entity entity).size ≤ _
    rw [hstandard]
    exact Nat.le_add_right _ _
  | stepping =>
    rw [call_next_of_stepping hphase]
    exact s.generator.configAt_addsAtMost s.generator.cursor s.names entity

/-- A move takes no names, so a move and the next run take no more than the run. -/
lemma Session.size_run_next_le (s : Session) (c : Coordinate) (entity : String) :
    ((s.run [.moveTo c, .next]).names.entity entity).size ≤
      (s.names.entity entity).size + s.generator.namesPerRun := by
  have hnames : (s.call (.moveTo c)).2.names = s.names := by
    rw [call]
    cases s.generator.moveTo c <;> rfl
  have hmodels : (s.call (.moveTo c)).2.generator.models = s.generator.models := by
    obtain ⟨phase, hgenerator, -⟩ := call_generator s (.moveTo c)
    rw [hgenerator]
  have hnext := (s.call (.moveTo c)).2.size_next_le entity
  rwa [Generator.namesPerRun, Generator.units, hnames, hmodels] at hnext

end ServingTuner
