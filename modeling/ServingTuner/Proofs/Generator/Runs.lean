import Mathlib
import ServingTuner.Generator
import ServingTuner.Proofs.VariantNames.Work

/-!
# What a generator builds

The parts of a run are described by the registry that is left when the run is built: each variant
is a configuration under the name that the registry has for it (`IsVariant`), and the run of a model
is put together from the variants of its drafts (`IsRun`).  Building a run never fails while the
entities have names left, and the only coordinates without a run are those of the wrong size.

The values of the units are handed out along the models.  `drafts_getElem?` says which unit gets
which values, and that there are values for all of them.
-/

namespace ServingTuner

/-! ### Dimension sets -/

/-- A dimension set that was put together unit by unit. -/
inductive DimensionSet.Built : DimensionSet → Prop
  | empty : Built {}
  | add {set larger : DimensionSet} {unit : ℕ} {dimensions : List Dimension} :
    Built set → set.add unit dimensions = .ok larger → Built larger

/-- Every slot belongs to a unit of the set. -/
lemma DimensionSet.Built.unit_lt {set : DimensionSet} (h : set.Built) :
    ∀ slot ∈ set.slots, slot.unit < set.units := by
  induction h with
  | empty => simp
  | @add set larger unit dimensions _ hadd ih =>
    rw [DimensionSet.add] at hadd
    split_ifs at hadd with hunit
    cases hadd
    intro slot hslot
    rcases List.mem_append.mp hslot with hslot | hslot
    · exact (ih slot hslot).trans (Nat.lt_succ_self _)
    · obtain ⟨dimension, -, rfl⟩ := List.mem_map.mp hslot
      show unit < set.units + 1
      omega

namespace Generator

open VariantNames

variable {g : Generator} {names after : VariantNames} {isDefault : Bool}

/-! ### New generators -/

/-- A generator that could be created stands at the start of its space, its bounds are valid, and
the dimensions are those of the units of its models, of which there is at least one. -/
lemma create_eq_ok {space : SearchSpace} {bounds : Bounds} {models : List ServedModel}
    {registry : Option VariantNames} (h : create space bounds models registry = .ok g) :
    g = { space, bounds, models, cursor := space.dimensions.start } ∧ models ≠ [] ∧
      bounds.check = .ok () ∧ space.dimensions.units = countUnits models := by
  rw [create] at h
  split_ifs at h with hregistry hmodels hunits
  · obtain ⟨valid, hbounds, hnew⟩ := bind_eq_ok.mp h
    cases hnew
    exact ⟨rfl, by simpa using hmodels, hbounds, hunits⟩
  · obtain ⟨valid, hbounds, hnew⟩ := bind_eq_ok.mp h
    cases hnew

/-! ### Variants and runs in a registry -/

/-- A configuration under the name that it has as a variant. -/
def IsVariant (names : VariantNames) (isDefault : Bool) (entity : String)
    (config variant : ModelConfig) : Prop :=
  ∃ name, names.IsNamed isDefault entity config.content name ∧ variant = config.withName name

/-- The variants of drafts, one for each. -/
def AreVariants (names : VariantNames) (isDefault : Bool) (drafts : List Draft)
    (variants : List ModelConfig) : Prop :=
  List.Forall₂ (fun draft variant => IsVariant names isDefault draft.entity draft.config variant)
    drafts variants

/-- The run of a model once its variants are known. -/
def runOf (g : Generator) (model : ServedModel) (drafts : List Draft) (variants : List ModelConfig)
    (config : ModelConfig) : ModelRun :=
  ⟨model.name, config,
    model.benchmarkFlags config.name (g.concurrencyOf model (drafts.map (·.concurrency))),
    if model.isComposite then variants else []⟩

/-- The run of a model from the drafts of its units. -/
def IsRun (g : Generator) (names : VariantNames) (isDefault : Bool) (model : ServedModel)
    (drafts : List Draft) (run : ModelRun) : Prop :=
  ∃ variants config, AreVariants names isDefault drafts variants ∧
    (if model.isComposite then
      IsVariant names isDefault model.name (model.baseline.withStages (variants.map (·.name))) config
    else config = variants.headD model.baseline) ∧
    run = g.runOf model drafts variants config

/-- A variant stays one while others are named. -/
lemma IsVariant.mono {entity : String} {config variant : ModelConfig}
    (hvariant : IsVariant names isDefault entity config variant)
    (h : names.Assigned isDefault after) : IsVariant after isDefault entity config variant := by
  obtain ⟨name, hname, rfl⟩ := hvariant
  exact ⟨name, hname.mono h, rfl⟩

/-- The variants of drafts stay their variants while others are named. -/
lemma AreVariants.mono {drafts : List Draft} {variants : List ModelConfig}
    (hvariants : AreVariants names isDefault drafts variants) (h : names.Assigned isDefault after) :
    AreVariants after isDefault drafts variants :=
  hvariants.imp fun _ _ hvariant => hvariant.mono h

/-- The run of a model stays its run while others are named. -/
lemma IsRun.mono {model : ServedModel} {drafts : List Draft} {run : ModelRun}
    (hrun : IsRun g names isDefault model drafts run) (h : names.Assigned isDefault after) :
    IsRun g after isDefault model drafts run := by
  obtain ⟨variants, config, hvariants, hconfig, rfl⟩ := hrun
  refine ⟨variants, config, hvariants.mono h, ?_, rfl⟩
  split_ifs at hconfig ⊢ with hcomposite
  · exact hconfig.mono h
  · exact hconfig

/-! ### Building -/

/-- Naming a configuration yields a variant of it. -/
lemma nameConfig_yields (entity : String) (config : ModelConfig) (isDefault : Bool) :
    (nameConfig entity config isDefault).Yields isDefault fun names variant =>
      IsVariant names isDefault entity config variant := by
  refine ((Naming.yields_assign entity config.content isDefault).bind ?_ fun name =>
    Naming.yields_pure isDefault (config.withName name)).imp ?_
  · intro names after name hassigned hname
    exact hname.mono hassigned
  · rintro names variant ⟨name, hname, rfl⟩
    exact ⟨name, hname, rfl⟩

/-- Naming drafts yields a variant of each. -/
lemma nameDrafts_yields (isDefault : Bool) (drafts : List Draft) :
    (nameDrafts isDefault drafts).Yields isDefault fun names variants =>
      AreVariants names isDefault drafts variants := by
  induction drafts with
  | nil =>
    refine (Naming.yields_pure isDefault []).imp ?_
    rintro names variants rfl
    exact List.Forall₂.nil
  | cons draft rest ih =>
    refine ((nameConfig_yields draft.entity draft.config isDefault).bind ?_ fun config =>
      ih.bind ?_ fun others => Naming.yields_pure isDefault (config :: others)).imp ?_
    · intro names after config hassigned hvariant
      exact hvariant.mono hassigned
    · intro names after others hassigned hvariants
      exact hvariants.mono hassigned
    · rintro names variants ⟨config, hvariant, others, hvariants, rfl⟩
      exact List.Forall₂.cons hvariant hvariants

/-- Building the run of an ensemble is to name its drafts and then the ensemble itself. -/
lemma modelRun_of_composite {model : ServedModel} (h : model.isComposite = true)
    (g : Generator) (isDefault : Bool) (drafts : List Draft) :
    g.modelRun isDefault model drafts =
      nameDrafts isDefault drafts >>= fun variants =>
        nameConfig model.name (model.baseline.withStages (variants.map (·.name))) isDefault >>=
          fun config => pure (g.runOf model drafts variants config) := by
  simp only [modelRun, runOf, h, if_true]

/-- Building the run of a plain model is to name its drafts. -/
lemma modelRun_of_plain {model : ServedModel} (h : model.isComposite = false)
    (g : Generator) (isDefault : Bool) (drafts : List Draft) :
    g.modelRun isDefault model drafts =
      nameDrafts isDefault drafts >>= fun variants =>
        pure (g.runOf model drafts variants (variants.headD model.baseline)) := by
  simp only [modelRun, runOf, h, Bool.false_eq_true, if_false]

/-- Building the run of a model yields one. -/
lemma modelRun_yields (g : Generator) (isDefault : Bool) (model : ServedModel)
    (drafts : List Draft) :
    (g.modelRun isDefault model drafts).Yields isDefault fun names run =>
      IsRun g names isDefault model drafts run := by
  have hlasts : ∀ {names after : VariantNames} {variants : List ModelConfig},
      names.Assigned isDefault after → AreVariants names isDefault drafts variants →
        AreVariants after isDefault drafts variants :=
    fun hassigned hvariants => hvariants.mono hassigned
  cases hcomposite : model.isComposite with
  | true =>
    have hrest : ∀ variants : List ModelConfig,
        (nameConfig model.name (model.baseline.withStages (variants.map (·.name))) isDefault >>=
          fun config => pure (g.runOf model drafts variants config)).Yields isDefault
          fun names run => ∃ config, IsVariant names isDefault model.name
            (model.baseline.withStages (variants.map (·.name))) config ∧
              run = g.runOf model drafts variants config := by
      intro variants
      exact (nameConfig_yields model.name _ isDefault).bind
        (fun hassigned hconfig => hconfig.mono hassigned) fun config => Naming.yields_pure _ _
    rw [modelRun_of_composite hcomposite]
    refine ((nameDrafts_yields isDefault drafts).bind hlasts hrest).imp ?_
    rintro names run ⟨variants, hvariants, config, hconfig, rfl⟩
    exact ⟨variants, config, hvariants, by rwa [if_pos hcomposite], rfl⟩
  | false =>
    rw [modelRun_of_plain hcomposite]
    refine ((nameDrafts_yields isDefault drafts).bind hlasts fun variants =>
      Naming.yields_pure isDefault
        (g.runOf model drafts variants (variants.headD model.baseline))).imp ?_
    rintro names run ⟨variants, hvariants, rfl⟩
    exact ⟨variants, _, hvariants, by rw [if_neg (by simp [hcomposite])], rfl⟩

/-- Building the runs of all models yields one for each. -/
lemma modelRuns_yields (g : Generator) (isDefault : Bool)
    (models : List (ServedModel × List Draft)) :
    (g.modelRuns isDefault models).Yields isDefault fun names runs =>
      List.Forall₂ (fun pair run => IsRun g names isDefault pair.1 pair.2 run) models runs := by
  induction models with
  | nil =>
    refine (Naming.yields_pure isDefault []).imp ?_
    rintro names runs rfl
    exact List.Forall₂.nil
  | cons pair rest ih =>
    refine ((modelRun_yields g isDefault pair.1 pair.2).bind ?_ fun run =>
      ih.bind ?_ fun others => Naming.yields_pure isDefault (run :: others)).imp ?_
    · intro names after run hassigned hrun
      exact hrun.mono hassigned
    · intro names after others hassigned hruns
      exact hruns.imp fun _ _ hrun => hrun.mono hassigned
    · rintro names runs ⟨run, hrun, others, hothers, rfl⟩
      exact List.Forall₂.cons hrun hothers

/-! ### The values of the units -/

/-- The values at a coordinate are those of every unit. -/
lemma length_of_valuesAt {set : DimensionSet} {c : Coordinate} {values : List UnitValues}
    (h : set.valuesAt c = .ok values) : values.length = set.units := by
  rw [DimensionSet.valuesAt] at h
  split_ifs at h
  cases h
  rw [List.length_map, List.length_range]

/-- The units of models are those of the first one and those of the others. -/
lemma countUnits_cons (model : ServedModel) (rest : List ServedModel) :
    countUnits (model :: rest) = model.unitCount + countUnits rest := rfl

/-- The drafts of models that follow others start where the values of those end. -/
lemma drafts_append (g : Generator) (before rest : List ServedModel) (values : List UnitValues) :
    g.drafts (before ++ rest) values =
      g.drafts before values ++ g.drafts rest (values.drop (countUnits before)) := by
  induction before generalizing values with
  | nil => rfl
  | cons model before ih =>
    rw [List.cons_append, drafts_cons, drafts_cons, ih, List.drop_drop, countUnits_cons,
      List.cons_append]

/-- Every model has drafts. -/
lemma length_drafts (g : Generator) (models : List ServedModel) (values : List UnitValues) :
    (g.drafts models values).length = models.length := by
  induction models generalizing values with
  | nil => rfl
  | cons model rest ih => rw [drafts_cons, List.length_cons, List.length_cons, ih]

/-- The drafts of a generator do not depend on where it stands. -/
lemma drafts_moved (g : Generator) (cursor : Coordinate) (phase : Phase)
    (models : List ServedModel) (values : List UnitValues) :
    ({ g with cursor := cursor, phase := phase } : Generator).drafts models values =
      g.drafts models values := by
  induction models generalizing values with
  | nil => rfl
  | cons model rest ih =>
    rw [drafts_cons, drafts_cons, ih]
    rfl

/-- The units of models are those before a model, its own and those after it. -/
lemma countUnits_append (before : List ServedModel) (model : ServedModel)
    (rest : List ServedModel) :
    countUnits (before ++ model :: rest) =
      countUnits before + model.unitCount + countUnits rest := by
  induction before with
  | nil => rw [List.nil_append, countUnits_cons]; exact (Nat.zero_add _ ▸ rfl)
  | cons first before ih =>
    rw [List.cons_append, countUnits_cons, countUnits_cons, ih]
    omega

/-- Where there are values for all units, a unit reads its own ones, past those of the models
before and of the units before it. -/
lemma drafts_getElem? (g : Generator) {before rest : List ServedModel} {model : ServedModel}
    {values : List UnitValues} (h : values.length = countUnits (before ++ model :: rest)) {i : ℕ}
    {unit : ServedUnit} (hunit : model.units[i]? = some unit) :
    ∃ drafts own, (g.drafts (before ++ model :: rest) values)[before.length]? =
        some (model, drafts) ∧
      values[countUnits before + i]? = some own ∧ drafts[i]? = some (g.draft unit own) := by
  obtain ⟨hi, -⟩ := List.getElem?_eq_some_iff.mp hunit
  rw [countUnits_append] at h
  have hrange : countUnits before + i < values.length := by
    have hcount : model.unitCount = model.units.length := rfl
    omega
  refine ⟨List.zipWith g.draft model.units (values.drop (countUnits before)), _, ?_,
    List.getElem?_eq_getElem hrange, ?_⟩
  · rw [drafts_append, List.getElem?_append_right (length_drafts g before values).le,
      length_drafts, Nat.sub_self, drafts_cons]
    rfl
  · rw [List.getElem?_zipWith, hunit, List.getElem?_drop, List.getElem?_eq_getElem hrange]

/-- Whatever a configuration reads or writes of the values of units is there: those that the slots
belong to, and for every unit of a model those at its place among all units. -/
structure ReadsInRange (g : Generator) (values : List UnitValues) : Prop where
  slots : ∀ slot ∈ g.space.dimensions.slots, slot.unit < values.length
  units : ∀ before model rest, g.models = before ++ model :: rest →
    ∀ i unit, model.units[i]? = some unit →
      ∃ drafts own, (g.drafts g.models values)[before.length]? = some (model, drafts) ∧
        values[countUnits before + i]? = some own ∧ drafts[i]? = some (g.draft unit own)

/-- Dimensions that cover as many units as the models have keep all reads in range. -/
lemma readsInRange (hbuilt : g.space.dimensions.Built)
    (hunits : g.space.dimensions.units = countUnits g.models) {c : Coordinate}
    {values : List UnitValues} (h : g.space.dimensions.valuesAt c = .ok values) :
    g.ReadsInRange values := by
  have hlength : values.length = g.space.dimensions.units := length_of_valuesAt h
  constructor
  · intro slot hslot
    rw [hlength]
    exact hbuilt.unit_lt slot hslot
  · intro before model rest hmodels i unit hunit
    rw [hmodels] at hunits ⊢
    exact drafts_getElem? g (hlength.trans hunits) hunit

/-! ### Run configurations -/

/-- The run of every model is in the configuration. -/
def AreRuns (g : Generator) (names : VariantNames) (isDefault : Bool)
    (models : List (ServedModel × List Draft)) (config : RunConfig) : Prop :=
  List.Forall₂ (fun pair run => IsRun g names isDefault pair.1 pair.2 run) models config.models

/-- Building the configuration of drafts yields one with a run for each model. -/
lemma configOf_yields (g : Generator) (isDefault : Bool)
    (models : List (ServedModel × List Draft)) :
    (g.configOf isDefault models).Yields isDefault
      fun names config => AreRuns g names isDefault models config := by
  refine ((modelRuns_yields g isDefault models).bind ?_ fun runs =>
    Naming.yields_pure isDefault (RunConfig.mk runs)).imp ?_
  · intro names after runs hassigned hruns
    exact hruns.imp fun _ _ hrun => hrun.mono hassigned
  · rintro names config ⟨runs, hruns, rfl⟩
    exact hruns

/-- Building the configuration at a coordinate of the right size yields the runs of its values. -/
lemma configAt_yields {c : Coordinate} {values : List UnitValues}
    (h : g.space.dimensions.valuesAt c = .ok values) :
    (g.configAt c).Yields false fun names config =>
      AreRuns g names false (g.drafts g.models values) config := by
  rw [configAt_def, h]
  exact configOf_yields g false _

/-- Building the default configuration yields the runs of the baselines. -/
lemma defaultConfig_yields (g : Generator) :
    g.defaultConfig.Yields true fun names config =>
      AreRuns g names true
        (g.models.map fun model => (model, model.units.map g.defaultDraft)) config := by
  rw [defaultConfig_def]
  exact configOf_yields g true _

/-- There is a default configuration, and building it leaves the registry as it is. -/
lemma defaultConfig_outcome (g : Generator) (names : VariantNames) :
    ∃ config, g.defaultConfig.outcome names = (.ok config, names) ∧
      AreRuns g names true
        (g.models.map fun model => (model, model.units.map g.defaultDraft)) config := by
  have hsame := ((defaultConfig_yields g).assigned names).eq_of_default
  obtain ⟨config, hok, hruns⟩ := (defaultConfig_yields g).answers names (by simp)
  rw [hsame] at hruns
  exact ⟨config, Prod.ext hok hsame, hruns⟩

/-- A coordinate of a wrong size has no configuration, and asking for one leaves the registry as it
is. -/
lemma configAt_of_size_ne {c : Coordinate} (h : c.size ≠ g.space.dimensions.slots.length)
    (names : VariantNames) :
    (g.configAt c).outcome names =
      (.error (.unresolvable c g.space.dimensions.slots.length), names) := by
  have hvalues : g.space.dimensions.valuesAt c =
      .error (.unresolvable c g.space.dimensions.slots.length) := if_neg h
  rw [configAt_def, hvalues, Naming.outcome_bind, Naming.outcome_lift]

/-- Building the configuration at a coordinate does nothing to the registry but name payloads. -/
lemma configAt_assigned (g : Generator) (c : Coordinate) (names : VariantNames) :
    names.Assigned false ((g.configAt c).outcome names).2 := by
  by_cases h : c.size = g.space.dimensions.slots.length
  · have hvalues : g.space.dimensions.valuesAt c = .ok _ := if_pos h
    exact (configAt_yields hvalues).assigned names
  · rw [configAt_of_size_ne h]
    exact Assigned.refl false names

end Generator

end ServingTuner
