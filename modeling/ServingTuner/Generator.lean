import ServingTuner.Bounds
import ServingTuner.Dimension
import ServingTuner.Naming
import ServingTuner.RunConfig
import ServingTuner.ServedModel

/-!
# Generating run configurations

A generator turns coordinates into run configurations. The first one it yields is the default: the
baselines as they are. Every later one resolves the cursor through the dimensions, clamps the
values to the bounds and builds one variant per search unit; an ensemble then points its schedule
at the variants of its stages.

Variants get their names from a registry that several generators can share, so making a run
configuration is work in `Naming`.
-/

namespace ServingTuner

/-- The space that a search walks, and how it walks it. -/
structure SearchSpace where
  dimensions : DimensionSet := {}
  radius : UInt32 := 3
  minMeasured : UInt32 := 3
  mode : ConcurrencyMode := .formula

/-- Which configuration a generator yields next. -/
inductive Phase where
  | default
  | stepping
  deriving DecidableEq

namespace Phase

/-- The name of a phase. -/
def name : Phase → String
  | default => "default"
  | stepping => "stepping"

/-- The phase stored under a number. -/
def ofNumber? : Nat → Option Phase
  | 0 => some default
  | 1 => some stepping
  | _ => none

/-- The name of the phase stored under a number. -/
def nameOfNumber (n : Nat) : String := ((ofNumber? n).map name).getD "unknown"

end Phase

/-! ### Variants of one search unit -/

/-- What the search decides for one search unit. -/
structure UnitSettings where
  batchSize : Int
  instanceCount : Int
  concurrency : Int
  deriving DecidableEq

namespace ServedUnit

/-- The instance group that the search writes. -/
def instanceGroup (unit : ServedUnit) (instances : Int) : Json :=
  .arr [Json.object [(ConfigField.count, .int instances),
    (ConfigField.kind, .str (if unit.cpuOnly then "KIND_CPU" else "KIND_GPU"))]]

/-- The configuration with dynamic batching switched on, unless it has batching of its own. -/
def batched (config : ModelConfig) : ModelConfig :=
  if config.hasSequenceBatching || config.hasDynamicBatching then config
  else config.withField ConfigField.dynamicBatching Json.empty

/-- The baseline with settings of the search, still under the baseline's name. -/
def tuned (unit : ServedUnit) (settings : UnitSettings) : ModelConfig :=
  let sized := unit.baseline.withField ConfigField.maxBatchSize (.int settings.batchSize)
  let config := sized.withField ConfigField.instanceGroup
    (unit.instanceGroup settings.instanceCount)
  if 1 ≤ settings.batchSize then batched config else config

/-- The baseline as the default variant serves it. Only a model that batches at all gets dynamic
batching. -/
def standard (unit : ServedUnit) : ModelConfig :=
  if 0 < unit.baseline.maxBatchSize then batched unit.baseline else unit.baseline

/-- The batch size of a baseline, 1 for a model that does not batch. -/
def baseBatchSize (unit : ServedUnit) : Int := max unit.baseline.maxBatchSize 1

/-- The flags of a model's benchmark: its own ones, overridden by the variant's name, requests of
one item, and the concurrency. -/
def benchmarkFlags (unit : ServedUnit) (variant : String) (concurrency : Int) : BenchmarkFlags :=
  let own : BenchmarkFlags := BenchmarkFlags.update {} (.obj unit.flags)
  ((own.set BenchmarkFlags.modelName (.str variant)).set BenchmarkFlags.batchSize (.int 1)).set
    BenchmarkFlags.concurrencyRange (.int concurrency)

end ServedUnit

/-- A variant of a search unit before it is named, with the concurrency it asks for. -/
structure Draft where
  entity : String
  config : ModelConfig
  concurrency : Int

/-- Names a configuration as a variant of an entity. -/
def nameConfig (entity : String) (config : ModelConfig) (isDefault : Bool) :
    Naming ModelConfig := do
  let name ← Naming.assign entity config.content isDefault
  return config.withName name

/-- Names drafts one after another. -/
def nameDrafts (isDefault : Bool) : List Draft → Naming (List ModelConfig)
  | [] => return []
  | draft :: rest => do
    let config ← nameConfig draft.entity draft.config isDefault
    let others ← nameDrafts isDefault rest
    return config :: others

/-! ### Generators -/

/-- A generator of run configurations. -/
structure Generator where
  space : SearchSpace
  bounds : Bounds
  models : List ServedModel
  cursor : Coordinate
  phase : Phase := .default

namespace Generator

/-- The number of search units of all models. -/
def countUnits (models : List ServedModel) : Nat := (models.map (·.unitCount)).foldr (· + ·) 0

/-- A generator at the start of its space. It needs a registry, at least one model, valid bounds
and dimensions for every search unit. -/
def create (space : SearchSpace) (bounds : Bounds) (models : List ServedModel)
    (registry : Option VariantNames) : Except Failure Generator :=
  if registry.isNone then .error .registryMissing
  else if models.isEmpty then .error .noModels
  else do
    bounds.check
    if space.dimensions.units = countUnits models then
      .ok { space, bounds, models, cursor := space.dimensions.start }
    else .error (.unitCount space.dimensions.units (countUnits models))

/-- The number of search units. -/
def units (g : Generator) : Nat := countUnits g.models

/-- Moves the cursor to a coordinate of the space. -/
def moveTo (g : Generator) (c : Coordinate) : Except Failure Generator :=
  if c.size = g.space.dimensions.slots.length then .ok { g with cursor := c }
  else .error (.unreachable c g.space.dimensions.slots.length)

/-- The concurrency of a model: the least that its units ask for, within the bounds. An ensemble
takes a concurrency that the bounds force on it as it is. -/
def concurrencyOf (g : Generator) (model : ServedModel) (asked : List Int) : Int :=
  let clamped := g.bounds.concurrency.clamp (asked.min?.getD 1)
  if model.isComposite then g.bounds.forcedConcurrency.getD clamped else clamped

/-- The part of a model in a run, from the drafts of its units. The units are named first. A plain
model is its only unit, and an ensemble is named once its schedule names the variants of the
stages. -/
def modelRun (g : Generator) (isDefault : Bool) (model : ServedModel) (drafts : List Draft) :
    Naming ModelRun := do
  let concurrency := g.concurrencyOf model (drafts.map (·.concurrency))
  let variants ← nameDrafts isDefault drafts
  if model.isComposite then
    let pointed := model.baseline.withStages (variants.map (·.name))
    let config ← nameConfig model.name pointed isDefault
    return ⟨model.name, config, model.benchmarkFlags config.name concurrency, variants⟩
  else
    let config := variants.headD model.baseline
    return ⟨model.name, config, model.benchmarkFlags config.name concurrency, []⟩

/-- The parts of all models, one after another. -/
def modelRuns (g : Generator) (isDefault : Bool) :
    List (ServedModel × List Draft) → Naming (List ModelRun)
  | [] => return []
  | (model, drafts) :: rest => do
    let run ← g.modelRun isDefault model drafts
    let others ← g.modelRuns isDefault rest
    return run :: others

/-- The configuration of all models, from the drafts of their units. -/
def configOf (g : Generator) (isDefault : Bool) (drafts : List (ServedModel × List Draft)) :
    Naming RunConfig := do
  let runs ← g.modelRuns isDefault drafts
  return ⟨runs⟩

/-! ### Generating with any products

A unit's concurrency is a product of numbers that come from the dimensions, the bounds and the
baselines. How products are formed is left open here, and they may be work that can fail. -/

section Products

variable {m : Type → Type} [Monad m] (product : Int → Int → m Int)

/-- The concurrency of a unit before it is clamped: its own one where the mode asks for that, and
else the one by the formula. -/
def concurrencyWith (g : Generator) (values : UnitValues) (batchSize instanceCount : Int) : m Int :=
  match g.space.mode, Fields.get? values Dimension.concurrency with
  | .coordinate, some asked => return asked
  | _, _ => g.bounds.formulaConcurrencyWith product batchSize instanceCount

/-- What a unit's values decide. Where the space has no dimension for a value, the baseline's own
one stands. -/
def settingsWith (g : Generator) (unit : ServedUnit) (values : UnitValues) : m UnitSettings := do
  let batchSize := g.bounds.batchSize.clamp
    ((Fields.get? values Dimension.batchSize).getD unit.baseBatchSize)
  let instanceCount := g.bounds.instanceCount.clamp
    ((Fields.get? values Dimension.instanceCount).getD unit.baseline.instanceCount)
  let concurrency ← g.concurrencyWith product values batchSize instanceCount
  return ⟨batchSize, instanceCount, g.bounds.concurrency.clamp concurrency⟩

/-- The variant of a unit at its values. -/
def draftWith (g : Generator) (unit : ServedUnit) (values : UnitValues) : m Draft := do
  let settings ← g.settingsWith product unit values
  return ⟨unit.name, unit.tuned settings, settings.concurrency⟩

/-- The default variant of a unit. Its concurrency follows the formula and is not clamped yet. -/
def defaultDraftWith (g : Generator) (unit : ServedUnit) : m Draft := do
  let concurrency ←
    g.bounds.formulaConcurrencyWith product unit.baseBatchSize unit.baseline.instanceCount
  return ⟨unit.name, unit.standard, concurrency⟩

/-- Every model with the drafts of its units; the values of the units come in the order of the
models. -/
def draftsWith (g : Generator) :
    List ServedModel → List UnitValues → m (List (ServedModel × List Draft))
  | [], _ => return []
  | model :: rest, values => do
    let own ← (model.units.zip values).mapM fun (unit, own) => g.draftWith product unit own
    let others ← g.draftsWith rest (values.drop model.unitCount)
    return (model, own) :: others

/-- The configuration at a coordinate. The cursor stays where it is. -/
def configAtWith (g : Generator) (c : Coordinate) : m (Naming RunConfig) :=
  match g.space.dimensions.valuesAt c with
  | .error failure => return throw failure
  | .ok values => do
    let drafts ← g.draftsWith product g.models values
    return g.configOf false drafts

/-- The configuration of the baselines. The phase stays what it is. -/
def defaultConfigWith (g : Generator) : m (Naming RunConfig) := do
  let drafts ← g.models.mapM fun model => do
    let own ← model.units.mapM (g.defaultDraftWith product)
    return (model, own)
  return g.configOf true drafts

/-- The default configuration the first time, and then the one at the cursor. -/
def nextWith (g : Generator) : m (Naming (RunConfig × Generator)) :=
  match g.phase with
  | .default => do
    let work ← g.defaultConfigWith product
    return do
      let config ← work
      return (config, { g with phase := .stepping })
  | .stepping => do
    let work ← g.configAtWith product g.cursor
    return do
      let config ← work
      return (config, g)

end Products

/-! ### Generating with saturating products -/

/-- What a unit's values decide. -/
def settings (g : Generator) (unit : ServedUnit) (values : UnitValues) : UnitSettings :=
  (g.settingsWith plainProduct unit values).run

/-- The variant of a unit at its values. -/
def draft (g : Generator) (unit : ServedUnit) (values : UnitValues) : Draft :=
  (g.draftWith plainProduct unit values).run

/-- The default variant of a unit. -/
def defaultDraft (g : Generator) (unit : ServedUnit) : Draft :=
  (g.defaultDraftWith plainProduct unit).run

/-- Every model with the drafts of its units. -/
def drafts (g : Generator) (models : List ServedModel) (values : List UnitValues) :
    List (ServedModel × List Draft) :=
  (g.draftsWith plainProduct models values).run

/-- The configuration at a coordinate. -/
def configAt (g : Generator) (c : Coordinate) : Naming RunConfig :=
  (g.configAtWith plainProduct c).run

/-- The configuration of the baselines. -/
def defaultConfig (g : Generator) : Naming RunConfig := (g.defaultConfigWith plainProduct).run

/-- The default configuration the first time, and then the one at the cursor. -/
def next (g : Generator) : Naming (RunConfig × Generator) := (g.nextWith plainProduct).run

theorem drafts_cons (g : Generator) (model : ServedModel) (rest : List ServedModel)
    (values : List UnitValues) :
    g.drafts (model :: rest) values =
      (model, List.zipWith g.draft model.units values) ::
        g.drafts rest (values.drop model.unitCount) := by
  rw [← List.map_uncurry_zip_eq_zipWith]
  exact congrArg (fun own => (model, own) :: g.drafts rest (values.drop model.unitCount))
    List.idRun_mapM

theorem configAt_def (g : Generator) (c : Coordinate) :
    g.configAt c = (do
      let values ← g.space.dimensions.valuesAt c
      g.configOf false (g.drafts g.models values)) := by
  unfold configAt configAtWith
  cases g.space.dimensions.valuesAt c <;> rfl

theorem defaultConfig_def (g : Generator) :
    g.defaultConfig =
      g.configOf true (g.models.map fun model => (model, model.units.map g.defaultDraft)) := by
  simp only [defaultConfig, defaultConfigWith, Id.run_bind, Id.run_pure, List.idRun_mapM]
  rfl

theorem next_of_default {g : Generator} (h : g.phase = .default) :
    g.next = do
      let config ← g.defaultConfig
      return (config, { g with phase := .stepping }) := by
  unfold next nextWith
  rw [h]
  rfl

theorem next_of_stepping {g : Generator} (h : g.phase = .stepping) :
    g.next = do
      let config ← g.configAt g.cursor
      return (config, g) := by
  unfold next nextWith
  rw [h]
  rfl

end Generator

end ServingTuner
