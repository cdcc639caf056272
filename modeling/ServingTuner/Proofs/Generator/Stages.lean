import Mathlib
import ServingTuner.Proofs.Config.Pointing
import ServingTuner.Proofs.Generator.Identity

/-!
# Ensembles and the variants of their stages

Every configuration that a session answers with has the runs of all models, with as many drafts as a
model has units (`runs_of_call`).  So the schedule of an ensemble is renamed after as many variants
as it names stages, and it names just these variants if and only if none of its stray entries is in
front of a stage (`call_config_points_iff`).
-/

namespace ServingTuner

namespace Generator

open VariantNames ModelConfig

variable {g : Generator} {names : VariantNames} {isDefault : Bool} {values : List UnitValues}

/-- The runs of models, each from as many drafts as the model has units. -/
def AreFullRuns (g : Generator) (names : VariantNames) (isDefault : Bool)
    (models : List ServedModel) (runs : List ModelRun) : Prop :=
  List.Forall₂ (fun model run => ∃ drafts, drafts.length = model.unitCount ∧
    IsRun g names isDefault model drafts run) models runs

/-- The runs at the values of all units are full ones. -/
lemma RunsAt.areFullRuns {models : List ServedModel} {runs : List ModelRun}
    (h : RunsAt g names models values runs) (hvalues : Covers values models) :
    AreFullRuns g names false models runs := by
  induction models generalizing values runs with
  | nil =>
    cases h
    exact .nil
  | cons model rest ih =>
    obtain ⟨run, others, rfl, hrun, hruns⟩ := h.exists_cons
    exact .cons ⟨_, length_draftsOf hvalues.first, hrun⟩ (ih hruns hvalues.rest)

/-- The runs of the baselines are full ones. -/
lemma AreRuns.areFullRuns {config : RunConfig} {models : List ServedModel}
    (h : AreRuns g names true (models.map fun model => (model, model.units.map g.defaultDraft))
      config) : AreFullRuns g names true models config.models := by
  refine (List.forall₂_map_left_iff.mp h).imp fun model run hrun => ?_
  exact ⟨_, List.length_map _, hrun⟩

/-- The run of an ensemble has a variant of each stage, and a schedule that is renamed after them. -/
lemma IsRun.schedule {model : ServedModel} {drafts : List Draft} {run : ModelRun}
    (h : IsRun g names isDefault model drafts run) (hmodel : model.WellFormed)
    (hcomposite : model.isComposite = true) (hdrafts : drafts.length = model.unitCount) :
    run.stages.length = model.stages.length ∧
      run.config.scheduleEntries =
        renameEntries (run.stages.map (·.name)) model.baseline.scheduleEntries := by
  obtain ⟨variants, config, hvariants, hconfig, rfl⟩ := h
  rw [if_pos hcomposite] at hconfig
  obtain ⟨name, -, rfl⟩ := hconfig
  have hstages : model.unitCount = model.stages.length := by
    rw [ServedModel.unitCount, ServedModel.units_of_composite hcomposite]
  simp only [runOf, hcomposite, if_true]
  refine ⟨hvariants.length_eq.symm.trans (hdrafts.trans hstages), ?_⟩
  rw [scheduleEntries_withName (hmodel.baseline.withStages _),
    scheduleEntries_withStages hmodel.baseline]

end Generator

namespace Session

open Generator ModelConfig

variable {s : Session}

/-- The default configuration has full runs of all models. -/
lemma runs_of_call_standard {config : RunConfig} (h : (s.call .standard).1 = .ok (.config config)) :
    ∃ names, AreFullRuns s.generator names true s.generator.models config.models := by
  obtain ⟨standard, hcall, hruns⟩ := s.exists_call_standard
  rw [hcall] at h
  cases h
  exact ⟨_, hruns.areFullRuns⟩

/-- The configuration at a coordinate has full runs of all models. -/
lemma runs_of_call_configAt {c : Coordinate} {config : RunConfig}
    (hunits : s.generator.space.dimensions.units = countUnits s.generator.models)
    (h : (s.call (.configAt c)).1 = .ok (.config config)) :
    ∃ names, AreFullRuns s.generator names false s.generator.models config.models := by
  by_cases hsize : c.size = s.generator.space.dimensions.slots.length
  · obtain ⟨values, hvalues, hcovers⟩ := exists_covers hunits hsize
    have hover : s.IsOver s.generator := ⟨_, _, rfl⟩
    have hruns := runsAt_of_call hover hvalues h (VariantNames.Assigned.refl false _)
    exact ⟨_, hruns.areFullRuns hcovers⟩
  · obtain ⟨failure, -, hcall⟩ := call_of_size_ne (s := s) (c := .configAt c) rfl hsize
    rw [hcall] at h
    cases h

/-- A configuration that a session answers with has full runs of all models. -/
lemma runs_of_call {c : SessionCall} {config : RunConfig}
    (hunits : s.generator.space.dimensions.units = countUnits s.generator.models)
    (h : (s.call c).1 = .ok (.config config)) :
    ∃ names isDefault, AreFullRuns s.generator names isDefault s.generator.models config.models := by
  cases c with
  | next =>
    cases hphase : s.generator.phase with
    | default =>
      rw [call_next_of_default hphase] at h
      obtain ⟨names, hruns⟩ := runs_of_call_standard h
      exact ⟨names, true, hruns⟩
    | stepping =>
      rw [call_next_of_stepping hphase] at h
      obtain ⟨names, hruns⟩ := runs_of_call_configAt hunits h
      exact ⟨names, false, hruns⟩
  | standard =>
    obtain ⟨names, hruns⟩ := runs_of_call_standard h
    exact ⟨names, true, hruns⟩
  | configAt c =>
    obtain ⟨names, hruns⟩ := runs_of_call_configAt hunits h
    exact ⟨names, false, hruns⟩
  | moveTo c =>
    rw [call] at h
    cases hmove : s.generator.moveTo c <;> rw [hmove] at h <;> cases h
  | registry c =>
    rw [call] at h
    cases hname : (s.names.call c).1 <;> rw [hname] at h <;> cases h

/-- Take a new generator over any models, any calls on it and its registry, and a further call that
is answered with a configuration.  Its models are those of the generator in order.  For each of them
that was built as an ensemble, the stages are the models that the schedule names, and the run has a
variant of each.  The schedule of the variant names just these variants, in order, if and only if no
stray entry of the baseline's schedule is in front of a stage; and then each entry that named a stage
names its variant, and all other entries are what they were. -/
theorem call_config_points_iff {space : SearchSpace} {bounds : Bounds} {models : List ServedModel}
    {registry : VariantNames} {g : Generator}
    (hg : Generator.create space bounds models (some registry) = .ok g) (calls : List SessionCall)
    {c : SessionCall} {config : RunConfig}
    (hconfig : (((Session.mk g registry).run calls).call c).1 = .ok (.config config)) :
    List.Forall₂ (fun model run => model.IsBuilt → model.isComposite = true →
      let entries := model.baseline.scheduleEntries
      let variants := run.stages.map (·.name)
      model.baseline.stepModels = model.stages.map (·.name) ∧
      run.stages.length = model.stages.length ∧
      (run.config.stepModels = variants ↔ StraysLast entries) ∧
      (StraysLast entries → Points entries variants run.config.scheduleEntries))
      models config.models := by
  obtain ⟨-, -, -, hunits⟩ := Generator.create_eq_ok hg
  obtain ⟨phase, hgenerator, -⟩ := run_new hg calls
  have hruns := runs_of_call (by rw [hgenerator]; exact hunits) hconfig
  rw [hgenerator] at hruns
  obtain ⟨names, isDefault, hruns⟩ := hruns
  refine hruns.imp ?_
  rintro model run ⟨drafts, hdrafts, hrun⟩ hbuilt hcomposite entries variants
  obtain ⟨hlength, hschedule⟩ := hrun.schedule hbuilt.wellFormed hcomposite hdrafts
  have hsteps := hbuilt.stepModels_eq hcomposite
  have hvariants : variants.length = (entries.filterMap entryModel).length := by
    rw [← stepModels_eq, hsteps, List.length_map, List.length_map, hlength]
  obtain ⟨hiff, hpoints⟩ := renameEntries_eq_iff hvariants
  rw [stepModels_eq run.config, hschedule]
  exact ⟨hsteps, hlength, hiff, hpoints⟩

/-- An ensemble of `stage` alone, with the given entries of its schedule. -/
def scheduled (entries : List Json) : ServedModel where
  name := "pipeline"
  baseline := ⟨.obj
    [("ensemble_scheduling", .obj [("step", .arr entries)]), ("input", .arr []),
      ("max_batch_size", .int 0), ("name", .str "pipeline")]⟩
  flags := []
  cpuOnly := false
  stages := [stage]

/-- A generator for an ensemble of `stage` with the given entries of its schedule. -/
def scheduledGenerator (entries : List Json) : Generator where
  space := { dimensions := ⟨[⟨0, ⟨Dimension.batchSize, .exponential, 0⟩⟩], 1⟩ }
  bounds := {}
  models := [scheduled entries]
  cursor := ⟨[0]⟩

/-- The entry of a schedule that names `stage`. -/
def stageEntry : Json := .obj [("model_name", .str "bert")]

/-- A stray entry. -/
def strayEntry : Json := .obj [("model_name", .int 7)]

/-- The baselines of `stage` and of an ensemble with the given entries of its schedule. -/
def scheduledLookup (entries : List Json) : BaselineLookup := fun name =>
  .ok (if name = "pipeline" then (scheduled entries).baseline.content else stage.baseline.content)

/-- What the runs of a configuration name in their schedules, and the variants of their stages. -/
def pointing (config : RunConfig) : List (List String × List String) :=
  config.models.map fun run => (run.config.stepModels, run.stages.map (·.name))

/-- A stray entry behind the only stage of an ensemble leaves the name of the variant to that
stage. -/
theorem call_config_points_of_stray_last :
    let entries := [stageEntry, strayEntry]
    ServedModel.create "pipeline" (some (scheduledLookup entries)) Json.empty false =
      .ok (scheduled entries) ∧
    ∃ config, ((Session.mk (scheduledGenerator entries) .empty).call (.configAt ⟨[2]⟩)).1 =
        .ok (.config config) ∧
      ∀ run ∈ config.models, Points entries (run.stages.map (·.name)) run.config.scheduleEntries := by
  intro entries
  have hcreated : ServedModel.create "pipeline" (some (scheduledLookup entries)) Json.empty false =
      .ok (scheduled entries) := rfl
  have hg : Generator.create (scheduledGenerator entries).space {} [scheduled entries]
      (some .empty) = .ok (scheduledGenerator entries) := rfl
  have hlast : StraysLast entries := by decide +kernel
  obtain ⟨config, hconfig⟩ : ∃ config,
      ((Session.mk (scheduledGenerator entries) .empty).call (.configAt ⟨[2]⟩)).1 =
        .ok (.config config) := ⟨_, rfl⟩
  have hruns := call_config_points_iff hg [] hconfig
  refine ⟨hcreated, config, hconfig, ?_⟩
  obtain ⟨runs⟩ := config
  rcases hruns with _ | ⟨hrun, _ | _⟩
  obtain ⟨-, -, -, hpoints⟩ := hrun (.create hcreated) rfl
  intro run hmem
  rw [List.mem_singleton.mp hmem]
  exact hpoints hlast

/-- A stray entry in front of the only stage of an ensemble takes the name of the variant, and the
stage is still named itself. -/
theorem call_config_not_points_of_stray_first :
    let entries := [strayEntry, stageEntry]
    ServedModel.create "pipeline" (some (scheduledLookup entries)) Json.empty false =
      .ok (scheduled entries) ∧
    Generator.create (scheduledGenerator entries).space {} [scheduled entries] (some .empty) =
      .ok (scheduledGenerator entries) ∧
    ∃ standard stepping,
      ((Session.mk (scheduledGenerator entries) .empty).call .standard).1 =
        .ok (.config standard) ∧
      ((Session.mk (scheduledGenerator entries) .empty).call (.configAt ⟨[2]⟩)).1 =
        .ok (.config stepping) ∧
      pointing standard = [(["bert_config_default", "bert"], ["bert_config_default"])] ∧
      pointing stepping = [(["bert_config_0", "bert"], ["bert_config_0"])] := by
  refine ⟨rfl, rfl, _, _, rfl, rfl, ?_, ?_⟩
  · decide +kernel
  · decide +kernel

end Session

end ServingTuner
