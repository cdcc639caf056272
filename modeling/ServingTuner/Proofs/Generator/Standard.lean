import Mathlib
import ServingTuner.Proofs.Generator.Frame
import ServingTuner.Proofs.Generator.Sharing

/-!
# The default configuration

The default configuration serves the baselines as they are, under reserved names and with dynamic
batching where a baseline batches but does not say how.  It depends on the bounds and the models
alone: generators over different spaces, with registries that have nothing in common, answer it alike
wherever they stand, and change nothing by that (`call_standard_eq`).
-/

namespace ServingTuner

/-! ### One unit -/

namespace ServedUnit

variable {unit : ServedUnit}

/-- The default variant of a unit.  It is the baseline, but for the reserved name and for empty
settings of dynamic batching, which a model gets that has a batch size and no settings of batching
at all. -/
structure StandardIn (unit : ServedUnit) (variant : ModelConfig) : Prop where
  name : variant.field? ConfigField.name = some (.str (VariantName.standard unit.name))
  others : variant.AgreesOutside unit.baseline [ConfigField.name, ConfigField.dynamicBatching]
  batching : variant.field? ConfigField.dynamicBatching =
    if 0 < unit.baseline.maxBatchSize ∧
        unit.baseline.field? ConfigField.dynamicBatching = none ∧
        unit.baseline.field? ConfigField.sequenceBatching = none then some Json.empty
    else unit.baseline.field? ConfigField.dynamicBatching

/-- The concurrency that keeps full batches waiting for every instance of a baseline, as many as the
bounds say, cut off at the greatest signed integer. -/
def fullConcurrency (unit : ServedUnit) (bounds : Bounds) : ℤ :=
  min (max unit.baseline.maxBatchSize 1 * unit.baseline.instanceCount * bounds.multiplier) maxSigned

/-- The settings of dynamic batching in the default variant. -/
lemma field?_dynamicBatching_standard (h : unit.baseline.IsObject) :
    unit.standard.field? ConfigField.dynamicBatching =
      if 0 < unit.baseline.maxBatchSize ∧
          unit.baseline.field? ConfigField.dynamicBatching = none ∧
          unit.baseline.field? ConfigField.sequenceBatching = none then some Json.empty
      else unit.baseline.field? ConfigField.dynamicBatching := by
  have hsequence : unit.baseline.hasSequenceBatching =
      (unit.baseline.field? ConfigField.sequenceBatching).isSome := rfl
  rw [standard]
  by_cases hbatch : 0 < unit.baseline.maxBatchSize
  · rw [if_pos hbatch, field?_dynamicBatching_batched h, hsequence]
    cases unit.baseline.field? ConfigField.dynamicBatching with
    | some own => simp
    | none => cases unit.baseline.field? ConfigField.sequenceBatching <;> simp [hbatch]
  · rw [if_neg hbatch, if_neg fun hall => hbatch hall.1]

/-- The default variant is the baseline under the reserved name. -/
lemma standardIn_standard (h : unit.baseline.IsObject) :
    unit.StandardIn (unit.standard.withName (VariantName.standard unit.name)) := by
  have hobject := Generator.isObject_standard h
  refine ⟨?_, ?_, ?_⟩
  · rw [ModelConfig.withName, ModelConfig.field?_withField hobject, if_pos rfl]
  · refine ModelConfig.AgreesOutside.withField ?_ hobject (by simp) _
    have hself := ModelConfig.AgreesOutside.refl unit.baseline
      [ConfigField.name, ConfigField.dynamicBatching]
    rw [standard]
    split_ifs
    · exact hself.batched h (by simp)
    · exact hself
  · rw [field?_withName hobject _ (by decide), field?_dynamicBatching_standard h]

/-- The default draft of a unit asks for the concurrency with full batches. -/
lemma formulaConcurrency_eq_full {bounds : Bounds} (hmultiplier : 1 ≤ bounds.multiplier)
    (unit : ServedUnit) :
    bounds.formulaConcurrency unit.baseBatchSize unit.baseline.instanceCount =
      unit.fullConcurrency bounds :=
  bounds.formulaConcurrency_eq unit.isCount_baseBatchSize.1 (one_le_instanceCount unit.baseline)
    hmultiplier

/-- The concurrency with full batches is a count. -/
lemma isCount_fullConcurrency {bounds : Bounds} (hmultiplier : 1 ≤ bounds.multiplier)
    (unit : ServedUnit) : IsCount (unit.fullConcurrency bounds) := by
  rw [← formulaConcurrency_eq_full hmultiplier unit]
  exact bounds.isCount_formulaConcurrency unit.isCount_baseBatchSize.1
    (one_le_instanceCount unit.baseline) hmultiplier

end ServedUnit

/-! ### One model -/

/-- The default run of a model within bounds.  All its units are served as their default variants.
The concurrency of a plain model is the one with full batches, within the bounds.  An ensemble takes
the upper limit as it is, or else the lower one, and without limits the least of its stages. -/
structure ServedModel.StandardRun (model : ServedModel) (bounds : Bounds) (run : ModelRun) :
    Prop where
  name : run.model = model.name
  isComposite : run.isComposite = model.isComposite
  variant : run.variant = VariantName.standard model.name
  units : List.Forall₂ ServedUnit.StandardIn model.units run.unitConfigs
  plain : model.isComposite = false → run.flags.concurrency =
    bounds.concurrency.clamp (model.toServedUnit.fullConcurrency bounds)
  upper : model.isComposite = true → ∀ n, bounds.concurrency.upper = some n →
    run.flags.concurrency = n
  lower : model.isComposite = true → bounds.concurrency.upper = none →
    ∀ n, bounds.concurrency.lower = some n → run.flags.concurrency = n
  least : model.isComposite = true → bounds.concurrency.upper = none →
    bounds.concurrency.lower = none →
      (model.stages.map (·.fullConcurrency bounds)).min? = some run.flags.concurrency

namespace Generator

variable {g : Generator} {names : VariantNames} {model : ServedModel} {run : ModelRun}

/-- The default drafts of units ask for the concurrencies with full batches. -/
lemma concurrency_defaultDrafts (hmultiplier : 1 ≤ g.bounds.multiplier)
    (units : List ServedUnit) :
    (units.map g.defaultDraft).map (·.concurrency) = units.map (·.fullConcurrency g.bounds) := by
  rw [List.map_map]
  exact List.map_congr_left fun unit _ => ServedUnit.formulaConcurrency_eq_full hmultiplier unit

/-- The units of a default run are served as their default variants. -/
lemma IsRun.units_standard (hmodel : model.WellFormed)
    (h : IsRun g names true model (model.units.map g.defaultDraft) run) :
    List.Forall₂ ServedUnit.StandardIn model.units run.unitConfigs := by
  obtain ⟨-, hvariants⟩ := h.unitConfigs (List.length_map _)
  have hunits := (List.forall₂_and_left _ _).mpr
    ⟨isObject_of_mem_units hmodel, List.forall₂_map_left_iff.mp hvariants⟩
  refine hunits.imp ?_
  rintro unit variant ⟨hobject, name, hnamed, rfl⟩
  obtain rfl : name = VariantName.standard unit.name := hnamed
  exact ServedUnit.standardIn_standard hobject

/-- The concurrency of a default run is decided from those that keep full batches waiting for the
units. -/
lemma IsRun.concurrency_standard (hbounds : g.ValidBounds) (hmodel : model.WellFormed)
    (h : IsRun g names true model (model.units.map g.defaultDraft) run) :
    run.flags.concurrency =
      g.concurrencyOf model (model.units.map (·.fullConcurrency g.bounds)) := by
  obtain ⟨-, -, -, hmultiplier⟩ := Bounds.check_eq_ok hbounds.checked
  obtain ⟨-, hflags⟩ := h.standard_flags_eq hmodel
  rw [hflags, concurrency_defaultDrafts hmultiplier]
  refine model.concurrency_benchmarkFlags _ (isCount_concurrencyOf hbounds model ?_)
  intro n hn
  obtain ⟨unit, -, rfl⟩ := List.mem_map.mp hn
  exact unit.isCount_fullConcurrency hmultiplier

/-- The default run of a model. -/
lemma IsRun.standard (hbounds : g.ValidBounds) (hmodel : model.WellFormed)
    (h : IsRun g names true model (model.units.map g.defaultDraft) run) :
    model.StandardRun g.bounds run := by
  obtain ⟨hkind, -⟩ := h.unitConfigs (List.length_map _)
  obtain ⟨hname, -⟩ := h.standard_flags_eq hmodel
  have hconcurrency := h.concurrency_standard hbounds hmodel
  have hforced : ∀ n, model.isComposite = true → g.bounds.forcedConcurrency = some n →
      run.flags.concurrency = n := by
    intro n hcomposite hn
    rw [hconcurrency, concurrencyOf_forced hcomposite hn]
  refine ⟨?_, hkind, hname, h.units_standard hmodel, ?_, ?_, ?_, ?_⟩
  · obtain ⟨variants, config, -, -, rfl⟩ := h
    rfl
  · intro hplain
    rw [hconcurrency, ServedModel.units_of_plain hplain]
    exact concurrencyOf_plain hplain _
  · intro hcomposite n hn
    exact hforced n hcomposite (by rw [Bounds.forcedConcurrency, hn]; rfl)
  · intro hcomposite hnone n hn
    exact hforced n hcomposite (by rw [Bounds.forcedConcurrency, hnone, hn]; rfl)
  · intro hcomposite hupper hlower
    have hlimits : g.bounds.concurrency = {} := by
      cases hboth : g.bounds.concurrency
      simp_all
    have hnonempty : model.units.map (·.fullConcurrency g.bounds) ≠ [] := by
      rw [← List.length_pos_iff, List.length_map]
      exact model.unitCount_pos
    rw [hconcurrency, ← ServedModel.units_of_composite hcomposite]
    exact min?_eq_concurrencyOf hcomposite hlimits hnonempty

/-- All generators with the same bounds and the same models, which were built, have one default
configuration in every registry, and building it leaves the registry as it is. -/
lemma exists_standard (hbounds : g.ValidBounds) (hmodels : ∀ model ∈ g.models, model.WellFormed) :
    ∃ config, List.Forall₂ (·.StandardRun g.bounds) g.models config.models ∧
      ∀ other : Generator, g.bounds = other.bounds → g.models = other.models → ∀ names,
        other.defaultConfig.outcome names = (.ok config, names) := by
  obtain ⟨config, houtcome, hruns⟩ := g.defaultConfig_outcome .empty
  refine ⟨config, ?_, ?_⟩
  · have hall := (List.forall₂_and_left _ _).mpr ⟨hmodels, List.forall₂_map_left_iff.mp hruns⟩
    exact hall.imp fun model run hrun => hrun.2.standard hbounds hrun.1
  · intro other hsame hsame' names
    rw [defaultConfig_congr hsame hsame']
    refine (defaultConfig_repeats g).again .empty names config (congrArg Prod.fst houtcome) ?_
    -- An empty registry has no names that could be lost.
    rw [houtcome]
    intro entity payload name hname
    cases hname

end Generator

/-! ### All models -/

namespace Session

open Generator

/-- For bounds and models that were built there is one default configuration, made of the baselines.
Every generator that can be created for them, over any space and with any registry, answers it after
any calls, and that leaves the generator and the registry as they are. -/
theorem call_standard_eq {space : SearchSpace} {bounds : Bounds} {models : List ServedModel}
    {registry : VariantNames} {g : Generator}
    (hg : Generator.create space bounds models (some registry) = .ok g)
    (hmodels : ∀ model ∈ models, model.IsBuilt) (hfits : bounds.Fits) :
    ∃ config, List.Forall₂ (·.StandardRun bounds) models config.models ∧
      ∀ space' registry' g', Generator.create space' bounds models (some registry') = .ok g' →
        ∀ calls, let s := (Session.mk g' registry').run calls
          s.call .standard = (.ok (.config config), s) := by
  obtain ⟨rfl, -, hchecked, -⟩ := create_eq_ok hg
  have hformed : ∀ model ∈ models, model.WellFormed :=
    fun model hmem => (hmodels model hmem).wellFormed
  obtain ⟨config, hruns, houtcome⟩ := exists_standard
    (g := { space, bounds, models, cursor := space.dimensions.start }) ⟨hchecked, hfits⟩ hformed
  refine ⟨config, hruns, ?_⟩
  intro space' registry' g' hg' calls s
  obtain ⟨phase, hgenerator, -⟩ := run_new hg' calls
  have hanswer : s.generator.defaultConfig.outcome s.names = (.ok config, s.names) :=
    houtcome s.generator (congrArg Generator.bounds hgenerator).symm
      (congrArg Generator.models hgenerator).symm s.names
  rw [call, hanswer]
  rfl

/-- In a registry in which the reserved name of a stage was adopted for something else, and past the
default configuration, the answer is still that of a new generator: the plain model with full batches,
and the ensemble with the least of its stages. -/
theorem call_standard_eq_after_adoption :
    let space : SearchSpace := { dimensions := mixedDimensions, mode := .coordinate }
    let calls : List SessionCall := [.registry (.adopt "bert" "bert_config_default" (.obj [])),
      .next, .moveTo ⟨[7, 7, 7, 7]⟩, .next]
    ∃ g, Generator.create space {} [streaming, pipeline] (some .empty) = .ok g ∧
      ∃ config, (Session.mk g .empty).call .standard =
          (.ok (.config config), Session.mk g .empty) ∧
        ((Session.mk g .empty).run calls).call .standard =
          (.ok (.config config), (Session.mk g .empty).run calls) ∧
        config.models.map (·.flags.concurrency) = [8, 16] := by
  intro space calls
  have hg : Generator.create space {} [streaming, pipeline] (some .empty) = .ok
      { space, bounds := {}, models := [streaming, pipeline], cursor := mixedDimensions.start } :=
    rfl
  obtain ⟨⟨runs⟩, hruns, hanswers⟩ :=
    call_standard_eq hg isBuilt_streaming_pipeline Bounds.fits_empty
  refine ⟨_, hg, ⟨runs⟩, hanswers space .empty _ hg [], hanswers space .empty _ hg calls, ?_⟩
  rcases hruns with _ | ⟨hfirst, _ | ⟨hsecond, _ | _⟩⟩
  have hplain : _ = (8 : ℤ) := hfirst.plain rfl
  have hleast := hsecond.least rfl rfl rfl
  have hmin : (pipeline.stages.map (·.fullConcurrency {})).min? = some 16 := by decide +kernel
  rw [hmin] at hleast
  simp [hplain, ← Option.some.inj hleast]

end Session

end ServingTuner
