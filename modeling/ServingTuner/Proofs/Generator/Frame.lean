import Mathlib
import ServingTuner.Proofs.Generator.Resolution

/-!
# What a run leaves alone

A search writes four fields of a unit's baseline, two fields of an ensemble's, and three flags.
Whatever else they hold is served and measured as it was given.  Of the four fields the settings of
dynamic batching are special, for what a baseline says of batching is never overruled.
`call_configAt_frame` says this of all units of all models at once.
-/

namespace ServingTuner

/-! ### Tables put over others -/

namespace Fields

variable {β : Type}

/-- Fields in order that are put over others are read first. -/
lemma get?_update {changes : Fields β} (h : Sorted changes) (fields : Fields β) (key : String) :
    get? (update fields changes) key = (get? changes key).or (get? fields key) := by
  induction changes generalizing fields with
  | nil => rfl
  | cons change changes ih =>
    obtain ⟨k, value⟩ := change
    show get? (update (set k value fields) changes) key = _
    rw [ih (List.pairwise_cons.mp h).2, get?_set, get?]
    split_ifs with hkey
    · rw [hkey, h.get?_rest]
      rfl
    · rfl

/-- The table of fields in order has the same fields. -/
lemma get?_ofList {fields : Fields β} (h : Sorted fields) (key : String) :
    get? (ofList fields) key = get? fields key := by
  rw [ofList, get?_update h]
  exact Option.or_none

end Fields

/-! ### Fields that are left alone -/

namespace ModelConfig

variable {config other : ModelConfig} {keys : List String}

/-- Two configurations have the same fields, but for those under some keys. -/
def AgreesOutside (config other : ModelConfig) (keys : List String) : Prop :=
  ∀ key, key ∉ keys → config.field? key = other.field? key

/-- A configuration agrees with itself. -/
lemma AgreesOutside.refl (config : ModelConfig) (keys : List String) :
    config.AgreesOutside config keys := fun _ _ => rfl

/-- Configurations that agree outside some keys agree outside more of them. -/
lemma AgreesOutside.mono (h : config.AgreesOutside other keys) {more : List String}
    (hkeys : keys ⊆ more) : config.AgreesOutside other more :=
  fun key hkey => h key fun hmem => hkey (hkeys hmem)

/-- A field may be written under one of the keys. -/
lemma AgreesOutside.withField (h : config.AgreesOutside other keys) (hobject : config.IsObject)
    {key : String} (hkey : key ∈ keys) (value : Json) :
    (config.withField key value).AgreesOutside other keys := by
  intro k hk
  rw [field?_withField hobject, if_neg (ne_of_mem_of_not_mem hkey hk).symm]
  exact h k hk

/-- Dynamic batching may be switched on if its key is one of the keys. -/
lemma AgreesOutside.batched (h : config.AgreesOutside other keys) (hobject : config.IsObject)
    (hkey : ConfigField.dynamicBatching ∈ keys) :
    (ServedUnit.batched config).AgreesOutside other keys := by
  rw [ServedUnit.batched]
  split_ifs
  · exact h
  · exact h.withField hobject hkey _

/-- A schedule may be pointed at variants if its key is one of the keys. -/
lemma AgreesOutside.withStages (h : config.AgreesOutside other keys) (hobject : config.IsObject)
    (hkey : ConfigField.ensembleScheduling ∈ keys) (names : List String) :
    (config.withStages names).AgreesOutside other keys := by
  rw [ModelConfig.withStages]
  split
  · split
    · exact h.withField hobject hkey _
    · exact h
  · exact h

end ModelConfig

/-! ### One unit -/

namespace ServedUnit

variable {unit : ServedUnit} {s : UnitSettings}

/-- The settings of dynamic batching that a configuration has once it is switched on. -/
lemma field?_dynamicBatching_batched {config : ModelConfig} (h : config.IsObject) :
    (batched config).field? ConfigField.dynamicBatching =
      (config.field? ConfigField.dynamicBatching).or
        (if config.hasSequenceBatching then none else some Json.empty) := by
  have hdynamic : config.hasDynamicBatching =
      (config.field? ConfigField.dynamicBatching).isSome := rfl
  rw [batched, hdynamic]
  cases hbatching : config.field? ConfigField.dynamicBatching with
  | some batching => simp [hbatching]
  | none =>
    cases config.hasSequenceBatching with
    | true => simp [hbatching]
    | false => simp [ModelConfig.field?_withField h]

/-- A variant with the fields of a unit's baseline, but for its name and for what a search decides.
The baseline's own settings of dynamic batching stay.  Without any it gets empty ones, unless its
requests are batched by sequences. -/
structure KeptIn (unit : ServedUnit) (variant : ModelConfig) : Prop where
  others : variant.AgreesOutside unit.baseline [ConfigField.name, ConfigField.maxBatchSize,
    ConfigField.instanceGroup, ConfigField.dynamicBatching]
  batching : ∀ own, unit.baseline.field? ConfigField.dynamicBatching = some own →
    variant.field? ConfigField.dynamicBatching = some own
  added : unit.baseline.field? ConfigField.dynamicBatching = none →
    unit.baseline.field? ConfigField.sequenceBatching = none →
      variant.field? ConfigField.dynamicBatching = some Json.empty
  absent : unit.baseline.field? ConfigField.dynamicBatching = none →
    ∀ own, unit.baseline.field? ConfigField.sequenceBatching = some own →
      variant.field? ConfigField.dynamicBatching = none

/-- Writing the sizes leaves the other fields of a baseline alone. -/
lemma agreesOutside_sized (h : unit.baseline.IsObject) (s : UnitSettings) :
    (unit.sized s).AgreesOutside unit.baseline
      [ConfigField.maxBatchSize, ConfigField.instanceGroup] := by
  have hself := ModelConfig.AgreesOutside.refl unit.baseline
    [ConfigField.maxBatchSize, ConfigField.instanceGroup]
  rw [sized]
  exact (hself.withField h (by simp) _).withField (h.withField _ _) (by simp) _

/-- The settings of dynamic batching in a variant. -/
lemma field?_dynamicBatching_tuned (h : unit.baseline.IsObject) (hpos : 1 ≤ s.batchSize) :
    (unit.tuned s).field? ConfigField.dynamicBatching =
      (unit.baseline.field? ConfigField.dynamicBatching).or
        (if unit.baseline.hasSequenceBatching then none else some Json.empty) := by
  have hsequence : (unit.sized s).hasSequenceBatching = unit.baseline.hasSequenceBatching :=
    congrArg Option.isSome (agreesOutside_sized h s ConfigField.sequenceBatching (by decide))
  rw [tuned_of_pos hpos, field?_dynamicBatching_batched (isObject_sized h), hsequence,
    agreesOutside_sized h s ConfigField.dynamicBatching (by decide)]

/-- A variant keeps the baseline, under any name. -/
lemma keptIn_tuned (h : unit.baseline.IsObject) (hpos : 1 ≤ s.batchSize) (name : String) :
    unit.KeptIn ((unit.tuned s).withName name) := by
  have hbatching : ((unit.tuned s).withName name).field? ConfigField.dynamicBatching =
      (unit.baseline.field? ConfigField.dynamicBatching).or
        (if unit.baseline.hasSequenceBatching then none else some Json.empty) := by
    rw [field?_withName (isObject_tuned h hpos) name (by decide),
      field?_dynamicBatching_tuned h hpos]
  have hsequence : unit.baseline.hasSequenceBatching =
      (unit.baseline.field? ConfigField.sequenceBatching).isSome := rfl
  refine ⟨?_, ?_, ?_, ?_⟩
  · have hsized : (unit.sized s).AgreesOutside unit.baseline [ConfigField.name,
        ConfigField.maxBatchSize, ConfigField.instanceGroup, ConfigField.dynamicBatching] :=
      (agreesOutside_sized h s).mono (by simp)
    rw [tuned_of_pos hpos]
    exact (hsized.batched (isObject_sized h) (by simp)).withField
      (isObject_batched (isObject_sized h)) (by simp) _
  · intro own hown
    rw [hbatching, hown]
    rfl
  · intro hnone hplain
    rw [hbatching, hnone, hsequence, hplain]
    rfl
  · intro hnone own hown
    rw [hbatching, hnone, hsequence, hown]
    rfl

/-- The flags of a benchmark are the unit's own ones, but for the three that are set. -/
lemma get?_benchmarkFlags (h : Fields.Sorted unit.flags) (variant : String) (concurrency : ℤ)
    (key : String) :
    (unit.benchmarkFlags variant concurrency).get? key =
      if key = BenchmarkFlags.modelName then some (.str variant)
      else if key = BenchmarkFlags.batchSize then some (.int 1)
      else if key = BenchmarkFlags.concurrencyRange then some (.int concurrency)
      else Fields.get? unit.flags key := by
  have hown : Fields.get? (Fields.update [] unit.flags) key = Fields.get? unit.flags key :=
    Fields.get?_ofList h key
  simp only [benchmarkFlags, BenchmarkFlags.update, BenchmarkFlags.set, BenchmarkFlags.get?,
    Fields.get?_set, hown]
  by_cases hmodel : key = BenchmarkFlags.modelName
  · subst hmodel
    simp [BenchmarkFlags.modelName, BenchmarkFlags.batchSize, BenchmarkFlags.concurrencyRange]
  · by_cases hbatch : key = BenchmarkFlags.batchSize
    · subst hbatch
      simp [BenchmarkFlags.modelName, BenchmarkFlags.batchSize, BenchmarkFlags.concurrencyRange]
    · simp only [hmodel, hbatch, if_false]

/-- The flags of a benchmark are in the order of their names. -/
lemma sorted_benchmarkFlags (unit : ServedUnit) (variant : String) (concurrency : ℤ) :
    Fields.Sorted (unit.benchmarkFlags variant concurrency).fields :=
  (((Fields.sorted_ofList unit.flags).set _ _).set _ _).set _ _

end ServedUnit

/-! ### One model -/

namespace Generator

variable {g : Generator} {names : VariantNames} {model : ServedModel} {run : ModelRun}
  {values : List UnitValues}

/-- A run of a model at values with everything else of it as it was given: the baselines of its
units are kept in their variants, an ensemble keeps what is not its name or its schedule, and the
flags are those of the model but for the variant, the items of a request and the concurrency. -/
structure Framed (g : Generator) (model : ServedModel) (values : List UnitValues)
    (run : ModelRun) : Prop where
  name : run.model = model.name
  isComposite : run.isComposite = model.isComposite
  units : List.Forall₂ ServedUnit.KeptIn model.units run.unitConfigs
  ensemble : model.isComposite = true →
    run.config.AgreesOutside model.baseline [ConfigField.name, ConfigField.ensembleScheduling]
  flags : ∀ key, run.flags.get? key =
    if key = BenchmarkFlags.modelName then some (.str run.variant)
    else if key = BenchmarkFlags.batchSize then some (.int 1)
    else if key = BenchmarkFlags.concurrencyRange then
      some (.int (g.decision model values).concurrency)
    else Fields.get? model.flags key
  sorted : Fields.Sorted run.flags.fields

/-- The variants of units at their values, unit by unit. -/
lemma AreVariants.forall₂_zip {units : List ServedUnit} {variants : List ModelConfig}
    (h : AreVariants names false (List.zipWith g.draft units values) variants) :
    List.Forall₂ (fun pair variant => (pair.1 ∈ units ∧ pair.2 ∈ values) ∧
      IsVariant names false pair.1.name (pair.1.tuned (g.settings pair.1 pair.2)) variant)
      (units.zip values) variants := by
  rw [← List.map_uncurry_zip_eq_zipWith] at h
  exact (List.forall₂_and_left _ _).mpr
    ⟨fun _ hpair => List.of_mem_zip hpair, List.forall₂_map_left_iff.mp h⟩

/-- The variants of units keep their baselines. -/
lemma AreVariants.keptIn (hbounds : g.bounds.check = .ok ()) {units : List ServedUnit}
    (hobjects : ∀ unit ∈ units, unit.baseline.IsObject)
    (hvalues : ∀ own ∈ values, PositiveValues own) (hlength : units.length ≤ values.length)
    {variants : List ModelConfig}
    (h : AreVariants names false (List.zipWith g.draft units values) variants) :
    List.Forall₂ ServedUnit.KeptIn units variants := by
  rw [← List.map_fst_zip hlength, List.forall₂_map_left_iff]
  refine h.forall₂_zip.imp ?_
  rintro ⟨unit, own⟩ variant ⟨⟨hunit, hown⟩, name, -, rfl⟩
  exact ServedUnit.keptIn_tuned (hobjects unit hunit)
    (one_le_batchSize hbounds unit (hvalues own hown)) name

/-- The run of a model leaves everything else of it alone. -/
lemma IsRun.framed (hbounds : g.bounds.check = .ok ()) (hmodel : model.WellFormed)
    (hflags : Fields.Sorted model.flags) (hvalues : ∀ own ∈ values, PositiveValues own)
    (hlength : model.unitCount ≤ values.length)
    (h : IsRun g names false model (g.draftsOf model values) run) : g.Framed model values run := by
  obtain ⟨hkind, hvariants⟩ := h.unitConfigs (length_draftsOf hlength)
  obtain ⟨-, -, hset⟩ := h.flags_eq_of_values hbounds hmodel hvalues hlength
  refine ⟨?_, hkind, ?_, ?_, ?_, ?_⟩
  · obtain ⟨variants, config, -, -, rfl⟩ := h
    rfl
  · exact hvariants.keptIn hbounds (isObject_of_mem_units hmodel) hvalues hlength
  · intro hcomposite
    obtain ⟨variants, config, -, hconfig, rfl⟩ := h
    rw [if_pos hcomposite] at hconfig
    obtain ⟨name, -, rfl⟩ := hconfig
    have hpointed := (ModelConfig.AgreesOutside.refl model.baseline
      [ConfigField.name, ConfigField.ensembleScheduling]).withStages hmodel.baseline (by simp)
        (variants.map (·.name))
    exact hpointed.withField (hmodel.baseline.withStages _) (by simp) _
  · intro key
    rw [hset, ServedUnit.get?_benchmarkFlags hflags]
  · rw [hset]
    exact model.sorted_benchmarkFlags _ _

end Generator

/-! ### All models -/

namespace Session

open Generator

/-- Take any calls on a new generator and a coordinate of the right size.  While every entity has
fewer than `2 ^ 64` names there is a configuration at the coordinate, and whenever there is one it has
a run for every model, at the values that follow those of the units of the models before it. -/
lemma call_configAt_runs {space : SearchSpace} {bounds : Bounds} {models : List ServedModel}
    {registry : VariantNames} {g : Generator}
    (hg : Generator.create space bounds models (some registry) = .ok g) (calls : List SessionCall)
    {c : Coordinate} {values : List UnitValues} (hvalues : space.dimensions.valuesAt c = .ok values) :
    let answer := ((Session.mk g registry).run calls).call (.configAt c)
    (answer.2.names.HasRoom → ∃ config, answer.1 = .ok (.config config)) ∧
    ∀ config, answer.1 = .ok (.config config) → config.models.length = models.length ∧
      ∀ before model rest, models = before ++ model :: rest →
        model.unitCount ≤ (values.drop (countUnits before)).length ∧ ∃ run,
          config.models[before.length]? = some run ∧
            IsRun g answer.2.names false model
              (g.draftsOf model (values.drop (countUnits before))) run := by
  intro answer
  obtain ⟨rfl, -, -, hunits⟩ := create_eq_ok hg
  have hover : ((Session.mk _ registry).run calls).IsOver
      { space, bounds, models, cursor := space.dimensions.start } :=
    (isOver_start _ registry).run calls
  have hrefl := VariantNames.Assigned.refl false answer.2.names
  refine ⟨?_, ?_⟩
  · intro hroom
    obtain ⟨config, hok, -⟩ := call_configAt_ok hover hvalues hrefl hroom
    exact ⟨config, hok⟩
  · intro config hconfig
    have hruns := runsAt_of_call hover hvalues hconfig hrefl
    refine ⟨?_, ?_⟩
    · rw [← hruns.length_eq, length_drafts]
    · rintro before model rest rfl
      have hlength := (length_of_valuesAt hvalues).trans hunits
      rw [countUnits_append] at hlength
      refine ⟨?_, hruns.isRun⟩
      rw [List.length_drop]
      omega

/-- Take any calls on a new generator over models that were built, with flags in the order of their
names, and a coordinate of the right size.  While every entity has fewer than `2 ^ 64` names there is
a configuration at the coordinate, and whenever there is one it has a run for every model that leaves
alone whatever the search does not decide: other fields of the units' baselines and of an ensemble's,
and other flags than the variant, the items of a request and the concurrency. -/
theorem call_configAt_frame {space : SearchSpace} {bounds : Bounds} {models : List ServedModel}
    {registry : VariantNames} {g : Generator}
    (hg : Generator.create space bounds models (some registry) = .ok g)
    (hmodels : ∀ model ∈ models, model.IsBuilt)
    (hflags : ∀ model ∈ models, Fields.Sorted model.flags) (calls : List SessionCall)
    {c : Coordinate} (hc : c.size = space.dimensions.slots.length) :
    let answer := ((Session.mk g registry).run calls).call (.configAt c)
    (answer.2.names.HasRoom → ∃ config, answer.1 = .ok (.config config)) ∧
    ∃ values, space.dimensions.valuesAt c = .ok values ∧ values.length = countUnits models ∧
      ∀ config, answer.1 = .ok (.config config) → config.models.length = models.length ∧
        ∀ before model rest, models = before ++ model :: rest → ∃ run,
          config.models[before.length]? = some run ∧
            g.Framed model (values.drop (countUnits before)) run := by
  intro answer
  obtain ⟨hnew, -, hchecked, hunits⟩ := create_eq_ok hg
  have hbounds : g.bounds.check = .ok () := by
    rw [hnew]
    exact hchecked
  have hvalues : space.dimensions.valuesAt c = .ok _ := if_pos hc
  obtain ⟨hanswers, hruns⟩ := call_configAt_runs hg calls hvalues
  refine ⟨hanswers, _, hvalues, (length_of_valuesAt hvalues).trans hunits, ?_⟩
  intro config hconfig
  obtain ⟨hcount, hruns⟩ := hruns config hconfig
  refine ⟨hcount, ?_⟩
  intro before model rest hsplit
  obtain ⟨hlength, run, hrun, hisRun⟩ := hruns before model rest hsplit
  have hmem : model ∈ models := hsplit ▸ List.mem_append_cons_self
  have hpositive : ∀ own ∈ List.drop (countUnits before) _, PositiveValues own :=
    fun own hown => positiveValues_of_valuesAt hvalues own (List.mem_of_mem_drop hown)
  exact ⟨run, hrun, hisRun.framed hbounds (hmodels model hmem).wellFormed (hflags model hmem)
    hpositive hlength⟩

/-- A model with requests in sequences, and with flags of its own for things that are not up to it. -/
def streaming : ServedModel where
  name := "speech"
  baseline := ⟨.obj [("input", .arr []), ("max_batch_size", .int 4), ("name", .str "speech"),
    ("sequence_batching", .obj [])]⟩
  flags := [("batch-size", .int 8), ("model-name", .str "other"), ("protocol", .str "grpc")]
  cpuOnly := true

/-- Both models can be built. -/
lemma isBuilt_streaming_pipeline : ∀ model ∈ [streaming, pipeline], model.IsBuilt := by
  have hstreaming : ServedModel.ofBaseline "speech" streaming.baseline.content
      (.obj streaming.flags) true = .ok streaming := rfl
  simpa using ⟨.ofBaseline hstreaming, isBuilt_pipeline⟩

/-- A model with sequences gets no dynamic batching at a large batch size.  Of its flags only the one
that is not set survives. -/
theorem call_configAt_frame_of_sequences :
    let space : SearchSpace := { dimensions := mixedDimensions }
    ∃ g, Generator.create space {} [streaming, pipeline] (some .empty) = .ok g ∧
      ∃ config run, ((Session.mk g .empty).call (.configAt ⟨[5, 3, 6, 1]⟩)).1 =
          .ok (.config config) ∧ config.models[0]? = some run ∧
        run.config.field? "dynamic_batching" = none ∧
        run.config.field? "sequence_batching" = some (.obj []) ∧
        run.flags.get? "batch-size" = some (.int 1) ∧
        run.flags.get? "protocol" = some (.str "grpc") := by
  intro space
  have hg : Generator.create space {} [streaming, pipeline] (some .empty) = .ok
      { space, bounds := {}, models := [streaming, pipeline], cursor := mixedDimensions.start } :=
    rfl
  refine ⟨_, hg, ?_⟩
  have hflags : ∀ model ∈ [streaming, pipeline], Fields.Sorted model.flags := by
    unfold Fields.Sorted
    decide +kernel
  obtain ⟨hanswers, values, -, -, hframe⟩ :=
    @call_configAt_frame _ _ _ _ _ hg isBuilt_streaming_pipeline hflags [] ⟨[5, 3, 6, 1]⟩ rfl
  obtain ⟨config, hconfig⟩ := hanswers (VariantNames.hasRoom_of_entities (by decide +kernel))
  obtain ⟨run, hrun, hframed⟩ := (hframe config hconfig).2 [] streaming [pipeline] rfl
  have hkept : streaming.toServedUnit.KeptIn run.config := by
    have hunits : List.Forall₂ ServedUnit.KeptIn [streaming.toServedUnit] [run.config] := by
      have hall := hframed.units
      rwa [ModelRun.unitConfigs, hframed.isComposite] at hall
    rcases hunits with _ | ⟨hkept, -⟩
    exact hkept
  exact ⟨config, run, hconfig, hrun, hkept.absent rfl _ rfl,
    hkept.others "sequence_batching" (by decide), hframed.flags "batch-size",
    hframed.flags "protocol"⟩

end Session

end ServingTuner
