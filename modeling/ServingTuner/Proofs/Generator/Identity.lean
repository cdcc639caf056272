import Mathlib
import ServingTuner.Proofs.Config.Building
import ServingTuner.Proofs.Generator.Session
import ServingTuner.Proofs.Generator.Tuning
import ServingTuner.Proofs.Text.CommandLine

/-!
# What identifies a run

A run is known by its command lines.  They hold the name of one variant for each model and its
concurrency, but no settings, and nothing at all about the stages of an ensemble.  Yet in a registry
whose names were all assigned, equal command lines mean equal runs (`run_text_eq_iff`): the lines
tell the names, a name stands for one text of a configuration, and that text tells the settings of a
unit, or the names of an ensemble's stage variants and by them the settings of the stages.
-/

namespace ServingTuner

/-- What a run decides for a model: the batch size and the number of instances of every unit, and
the concurrency of the model. -/
structure Decision where
  units : List (ℤ × ℤ)
  concurrency : ℤ
  deriving DecidableEq

namespace Generator

open VariantNames

variable {g : Generator} {names : VariantNames} {isDefault : Bool} {model : ServedModel}
  {run other : ModelRun} {values others : List UnitValues}

/-! ### Decisions -/

/-- The settings of units at their values. -/
def unitSettings (g : Generator) (units : List ServedUnit) (values : List UnitValues) :
    List UnitSettings :=
  List.zipWith g.settings units values

/-- The batch sizes and the numbers of instances of units at their values. -/
def unitSizes (g : Generator) (units : List ServedUnit) (values : List UnitValues) :
    List (ℤ × ℤ) :=
  (g.unitSettings units values).map fun settings => (settings.batchSize, settings.instanceCount)

/-- The decision for a model at the values of its units. -/
def decision (g : Generator) (model : ServedModel) (values : List UnitValues) : Decision :=
  ⟨g.unitSizes model.units values,
    g.concurrencyOf model ((g.unitSettings model.units values).map (·.concurrency))⟩

/-- The decisions for models; the values of the units come in the order of the models. -/
def decisions (g : Generator) : List ServedModel → List UnitValues → List Decision
  | [], _ => []
  | model :: rest, values =>
    g.decision model values :: g.decisions rest (values.drop model.unitCount)

/-- The drafts of units ask for the concurrencies of their settings. -/
lemma concurrency_drafts (g : Generator) (units : List ServedUnit) (values : List UnitValues) :
    (List.zipWith g.draft units values).map (·.concurrency) =
      (g.unitSettings units values).map (·.concurrency) := by
  rw [unitSettings, List.map_zipWith, List.map_zipWith]
  rfl

/-- Units with the same sizes at some values and at others have the same drafts, but for the
concurrencies. -/
lemma drafts_of_unitSizes_eq {units : List ServedUnit}
    (h : g.unitSizes units values = g.unitSizes units others) :
    (List.zipWith g.draft units values).map (fun draft => (draft.entity, draft.config)) =
      (List.zipWith g.draft units others).map fun draft => (draft.entity, draft.config) := by
  induction units generalizing values others with
  | nil => rfl
  | cons unit units ih =>
    rcases values with _ | ⟨own, values⟩ <;> rcases others with _ | ⟨own', others⟩
    · rfl
    · cases h
    · cases h
    · obtain ⟨hsize, hrest⟩ := List.cons.inj h
      obtain ⟨hbatch, hinstances⟩ := Prod.mk.inj hsize
      have hconfig : unit.tuned (g.settings unit own) = unit.tuned (g.settings unit own') :=
        ServedUnit.tuned_congr hbatch hinstances
      have hdraft : (g.draft unit own).config = (g.draft unit own').config := hconfig
      simp only [List.zipWith_cons_cons, List.map_cons, ih hrest, hdraft]
      rfl

/-! ### Variants and their names -/

/-- The name of a variant stands for its configuration, and the variant is the configuration under
that name. -/
lemma IsVariant.nameOf? {entity : String} {config variant : ModelConfig}
    (h : IsVariant names isDefault entity config variant) (hobject : config.IsObject) :
    names.IsNamed isDefault entity config.content variant.name := by
  obtain ⟨name, hname, rfl⟩ := h
  rwa [ModelConfig.name_withName hobject]

/-- A configuration has one variant. -/
lemma IsVariant.unique {entity : String} {config variant variant' : ModelConfig}
    (h : IsVariant names isDefault entity config variant)
    (h' : IsVariant names isDefault entity config variant') : variant = variant' := by
  obtain ⟨name, hname, rfl⟩ := h
  obtain ⟨name', hname', rfl⟩ := h'
  cases isDefault with
  | true => rw [show name = name' from Eq.trans hname (Eq.symm hname')]
  | false => rw [Option.some.inj (Eq.trans (Eq.symm hname) hname')]

/-- Variants of one name come from configurations of one text. -/
lemma IsVariant.key_eq {entity : String} {config config' variant variant' : ModelConfig}
    (hpaired : names.Paired) (h : IsVariant names false entity config variant)
    (h' : IsVariant names false entity config' variant') (hobject : config.IsObject)
    (hobject' : config'.IsObject) (hname : variant.name = variant'.name) :
    key config.content = key config'.content := by
  have hpayload := (hpaired entity _ _).mpr (h.nameOf? hobject)
  have hpayload' := (hpaired entity _ _).mpr (h'.nameOf? hobject')
  rw [hname, hpayload'] at hpayload
  exact (Option.some.inj hpayload).symm

/-- Drafts that agree but for the concurrencies have the same variants. -/
lemma AreVariants.unique {drafts drafts' : List Draft} {variants variants' : List ModelConfig}
    (h : AreVariants names isDefault drafts variants)
    (h' : AreVariants names isDefault drafts' variants')
    (hdrafts : drafts.map (fun draft => (draft.entity, draft.config)) =
      drafts'.map fun draft => (draft.entity, draft.config)) : variants = variants' := by
  let Named (pair : String × ModelConfig) (variant : ModelConfig) : Prop :=
    IsVariant names isDefault pair.1 pair.2 variant
  have hnamed : List.Forall₂ Named (drafts.map fun draft => (draft.entity, draft.config)) variants :=
    List.forall₂_map_left_iff.mpr h
  have hnamed' : List.Forall₂ Named (drafts'.map fun draft => (draft.entity, draft.config))
      variants' := List.forall₂_map_left_iff.mpr h'
  have hunique : Relator.RightUnique Named := fun _ _ _ hv hv' => hv.unique hv'
  rw [← hdrafts] at hnamed'
  exact List.right_unique_forall₂' hunique hnamed hnamed'

/-- Units whose variants have the same names at some values and at others have the same sizes. -/
lemma unitSizes_of_names_eq (hpaired : names.Paired) (hbounds : g.bounds.check = .ok ())
    {units : List ServedUnit} (hobjects : ∀ unit ∈ units, unit.baseline.IsObject)
    (hvalues : ∀ own ∈ values, PositiveValues own) (hothers : ∀ own ∈ others, PositiveValues own)
    {variants variants' : List ModelConfig}
    (h : AreVariants names false (List.zipWith g.draft units values) variants)
    (h' : AreVariants names false (List.zipWith g.draft units others) variants')
    (hnames : variants.map (·.name) = variants'.map (·.name)) :
    g.unitSizes units values = g.unitSizes units others := by
  induction units generalizing values others variants variants' with
  | nil => rfl
  | cons unit units ih =>
    obtain ⟨hunit, hunits⟩ := List.forall_mem_cons.mp hobjects
    rcases values with _ | ⟨own, values⟩ <;> rcases others with _ | ⟨own', others⟩
    · rfl
    · rcases h with _ | _
      rcases h' with _ | ⟨_, _⟩
      cases hnames
    · rcases h with _ | ⟨_, _⟩
      rcases h' with _ | _
      cases hnames
    · rcases h with _ | ⟨hvariant, hvariants⟩
      rcases h' with _ | ⟨hvariant', hvariants'⟩
      obtain ⟨hname, hrest⟩ := List.cons.inj hnames
      obtain ⟨hown, hvalues⟩ := List.forall_mem_cons.mp hvalues
      obtain ⟨hown', hothers⟩ := List.forall_mem_cons.mp hothers
      have hpos := one_le_batchSize hbounds unit hown
      have hpos' := one_le_batchSize hbounds unit hown'
      have hkey := hvariant.key_eq hpaired hvariant' (ServedUnit.isObject_tuned hunit hpos)
        (ServedUnit.isObject_tuned hunit hpos') hname
      obtain ⟨hbatch, hinstances⟩ := ServedUnit.tuned_of_key_eq hunit hpos hpos' hkey
      have hsizes := ih hunits hvalues hothers hvariants hvariants' hrest
      exact congrArg₂ List.cons (Prod.ext hbatch hinstances) hsizes

/-! ### Runs of one model -/

/-- The drafts of a model's units. -/
def draftsOf (g : Generator) (model : ServedModel) (values : List UnitValues) : List Draft :=
  List.zipWith g.draft model.units values

/-- Where there are values for all units of a model, all of them have drafts. -/
lemma length_draftsOf (h : model.unitCount ≤ values.length) :
    (g.draftsOf model values).length = model.unitCount := by
  rw [draftsOf, List.length_zipWith]
  exact min_eq_left h

/-- The units of a well-formed model have objects for baselines. -/
lemma isObject_of_mem_units (h : model.WellFormed) :
    ∀ unit ∈ model.units, unit.baseline.IsObject := by
  intro unit hunit
  rw [ServedModel.units] at hunit
  split_ifs at hunit
  · exact h.stages unit hunit
  · rw [List.mem_singleton.mp hunit]
    exact h.baseline

/-- The flags of a run give it the name of a variant of the model, if the first draft of a plain
model is one of the model itself. -/
lemma IsRun.flags_eq {drafts : List Draft} (h : IsRun g names isDefault model drafts run)
    (hmodel : model.WellFormed)
    (hdrafts : model.isComposite = false → ∃ draft rest, drafts = draft :: rest ∧
      draft.entity = model.name ∧ draft.config.IsObject) :
    ∃ payload, names.IsNamed isDefault model.name payload run.variant ∧
      run.flags = model.benchmarkFlags run.variant
        (g.concurrencyOf model (drafts.map (·.concurrency))) := by
  obtain ⟨variants, config, hvariants, hconfig, rfl⟩ := h
  cases hcomposite : model.isComposite with
  | true =>
    rw [if_pos hcomposite] at hconfig
    exact ⟨_, hconfig.nameOf? (hmodel.baseline.withStages _), rfl⟩
  | false =>
    rw [if_neg (by simp [hcomposite])] at hconfig
    obtain ⟨draft, rest, rfl, hentity, hobject⟩ := hdrafts hcomposite
    rcases hvariants with _ | ⟨hvariant, hvariants⟩
    refine ⟨draft.config.content, ?_, rfl⟩
    show names.IsNamed isDefault model.name draft.config.content config.name
    rw [hconfig, ← hentity]
    exact hvariant.nameOf? hobject

/-- The only draft of a plain model is one of the model itself. -/
lemma draftsOf_plain (g : Generator) (h : model.isComposite = false)
    (hlength : model.unitCount ≤ values.length) :
    ∃ own ∈ values, g.draftsOf model values = [g.draft model.toServedUnit own] := by
  have hunits := ServedModel.units_of_plain h
  rw [ServedModel.unitCount, hunits] at hlength
  cases values with
  | nil => simp at hlength
  | cons own values =>
    refine ⟨own, List.mem_cons_self, ?_⟩
    rw [draftsOf, hunits]
    rfl

/-- The flags of a run at positive values give it the name of a variant of the model and the
concurrency that was decided. -/
lemma IsRun.flags_eq_of_values (h : IsRun g names false model (g.draftsOf model values) run)
    (hbounds : g.bounds.check = .ok ()) (hmodel : model.WellFormed)
    (hvalues : ∀ own ∈ values, PositiveValues own) (hlength : model.unitCount ≤ values.length) :
    ∃ payload, names.IsNamed false model.name payload run.variant ∧
      run.flags = model.benchmarkFlags run.variant (g.decision model values).concurrency := by
  obtain ⟨payload, hname, hflags⟩ := h.flags_eq hmodel fun hplain => by
    obtain ⟨own, hown, hdrafts⟩ := g.draftsOf_plain hplain hlength
    exact ⟨_, [], hdrafts, rfl, ServedUnit.isObject_tuned hmodel.baseline
      (one_le_batchSize hbounds _ (hvalues own hown))⟩
  rw [draftsOf, concurrency_drafts] at hflags
  exact ⟨payload, hname, hflags⟩

/-- The name of a model's own variant tells the names of the variants of its units, be the model an
ensemble or not. -/
lemma names_eq_of_name_eq (hpaired : names.Paired) (hmodel : model.WellFormed)
    {variants variants' : List ModelConfig} {config config' : ModelConfig}
    (hcount : variants.length = model.unitCount) (hcount' : variants'.length = model.unitCount)
    (h : if model.isComposite then IsVariant names false model.name
        (model.baseline.withStages (variants.map (·.name))) config
      else config = variants.headD model.baseline)
    (h' : if model.isComposite then IsVariant names false model.name
        (model.baseline.withStages (variants'.map (·.name))) config'
      else config' = variants'.headD model.baseline)
    (hname : config.name = config'.name) : variants.map (·.name) = variants'.map (·.name) := by
  cases hcomposite : model.isComposite with
  | true =>
    rw [if_pos hcomposite] at h h'
    have hkey := h.key_eq hpaired h' (hmodel.baseline.withStages _) (hmodel.baseline.withStages _)
      hname
    rw [ServedModel.unitCount, ServedModel.units_of_composite hcomposite,
      ← List.length_map (·.name)] at hcount hcount'
    exact ModelConfig.withStages_of_key_eq hmodel.baseline (hcount.trans hcount'.symm)
      (hcount.le.trans hmodel.steps) hkey
  | false =>
    rw [if_neg (by simp [hcomposite])] at h h'
    rw [ServedModel.unitCount, ServedModel.units_of_plain hcomposite] at hcount hcount'
    obtain ⟨variant, rfl⟩ := List.length_eq_one_iff.mp hcount
    obtain ⟨variant', rfl⟩ := List.length_eq_one_iff.mp hcount'
    rw [h, h'] at hname
    exact congrArg (fun name => [name]) hname

/-- Two runs of a model with the same flags were decided alike. -/
lemma decision_of_flags_eq (hpaired : names.Paired) (hbounds : g.bounds.check = .ok ())
    (hmodel : model.WellFormed) (hvalues : ∀ own ∈ values, PositiveValues own)
    (hothers : ∀ own ∈ others, PositiveValues own) (hlength : model.unitCount ≤ values.length)
    (hlength' : model.unitCount ≤ others.length)
    (h : IsRun g names false model (g.draftsOf model values) run)
    (h' : IsRun g names false model (g.draftsOf model others) other)
    (hflags : run.flags = other.flags) : g.decision model values = g.decision model others := by
  obtain ⟨-, -, hrun⟩ := h.flags_eq_of_values hbounds hmodel hvalues hlength
  obtain ⟨-, -, hother⟩ := h'.flags_eq_of_values hbounds hmodel hothers hlength'
  rw [hrun, hother] at hflags
  obtain ⟨hname, hconcurrency⟩ := model.benchmarkFlags_inj hflags
  obtain ⟨variants, config, hvariants, hconfig, rfl⟩ := h
  obtain ⟨variants', config', hvariants', hconfig', rfl⟩ := h'
  have hcount : variants.length = model.unitCount :=
    hvariants.length_eq.symm.trans (length_draftsOf hlength)
  have hcount' : variants'.length = model.unitCount :=
    hvariants'.length_eq.symm.trans (length_draftsOf hlength')
  have hnames := names_eq_of_name_eq hpaired hmodel hcount hcount' hconfig hconfig' hname
  have hsizes := unitSizes_of_names_eq hpaired hbounds (isObject_of_mem_units hmodel) hvalues
    hothers hvariants hvariants' hnames
  exact congrArg₂ Decision.mk hsizes hconcurrency

/-- Two runs of a model that were decided alike are the same. -/
lemma run_of_decision_eq (h : IsRun g names false model (g.draftsOf model values) run)
    (h' : IsRun g names false model (g.draftsOf model others) other)
    (hdecision : g.decision model values = g.decision model others) : run = other := by
  obtain ⟨hsizes, hconcurrency⟩ := Decision.mk.inj hdecision
  obtain ⟨variants, config, hvariants, hconfig, rfl⟩ := h
  obtain ⟨variants', config', hvariants', hconfig', rfl⟩ := h'
  obtain rfl : variants = variants' := hvariants.unique hvariants' (drafts_of_unitSizes_eq hsizes)
  have hsame : config = config' := by
    split_ifs at hconfig hconfig' with hcomposite
    · exact hconfig.unique hconfig'
    · rw [hconfig, hconfig']
  rw [hsame, runOf, runOf, draftsOf, draftsOf, concurrency_drafts, concurrency_drafts, hconcurrency]

/-! ### Runs of all models -/

/-- Values for all units of some models, all of them positive. -/
structure Covers (values : List UnitValues) (models : List ServedModel) : Prop where
  positive : ∀ own ∈ values, PositiveValues own
  length : countUnits models ≤ values.length

/-- The values of all units cover the first model. -/
lemma Covers.first {rest : List ServedModel} (h : Covers values (model :: rest)) :
    model.unitCount ≤ values.length :=
  (Nat.le_add_right _ _).trans h.length

/-- The values past those of the first model cover the others. -/
lemma Covers.rest {rest : List ServedModel} (h : Covers values (model :: rest)) :
    Covers (values.drop model.unitCount) rest := by
  constructor
  · intro own hown
    exact h.positive own (List.mem_of_mem_drop hown)
  · have hlength := h.length
    rw [countUnits_cons] at hlength
    rw [List.length_drop]
    omega

/-- A coordinate of the right size has values that cover the models of a new generator. -/
lemma exists_covers {set : DimensionSet} {models : List ServedModel}
    (hunits : set.units = countUnits models) {c : Coordinate} (h : c.size = set.slots.length) :
    ∃ values, set.valuesAt c = .ok values ∧ Covers values models := by
  have hvalues : set.valuesAt c = .ok _ := if_pos h
  refine ⟨_, hvalues, positiveValues_of_valuesAt hvalues, ?_⟩
  rw [length_of_valuesAt hvalues, hunits]

/-- The runs of models at the values of their units. -/
def RunsAt (g : Generator) (names : VariantNames) (models : List ServedModel)
    (values : List UnitValues) (runs : List ModelRun) : Prop :=
  List.Forall₂ (fun pair run => IsRun g names false pair.1 pair.2 run) (g.drafts models values) runs

/-- The runs of models are that of the first one and those of the others. -/
lemma RunsAt.exists_cons {model : ServedModel} {rest : List ServedModel} {runs : List ModelRun}
    (h : RunsAt g names (model :: rest) values runs) :
    ∃ run others, runs = run :: others ∧
      IsRun g names false model (g.draftsOf model values) run ∧
      RunsAt g names rest (values.drop model.unitCount) others := by
  rw [RunsAt, drafts_cons] at h
  rcases h with _ | ⟨hrun, hruns⟩
  exact ⟨_, _, rfl, hrun, hruns⟩

/-- Runs with the same flags were decided alike. -/
lemma decisions_of_flags_eq (hpaired : names.Paired) (hbounds : g.bounds.check = .ok ())
    {models : List ServedModel} (hmodels : ∀ model ∈ models, model.WellFormed)
    (hvalues : Covers values models) (hothers : Covers others models) {runs runs' : List ModelRun}
    (h : RunsAt g names models values runs) (h' : RunsAt g names models others runs')
    (hflags : runs.map (·.flags) = runs'.map (·.flags)) :
    g.decisions models values = g.decisions models others := by
  induction models generalizing values others runs runs' with
  | nil => rfl
  | cons model rest ih =>
    obtain ⟨hmodel, hmodels⟩ := List.forall_mem_cons.mp hmodels
    obtain ⟨run, others, rfl, hrun, hruns⟩ := h.exists_cons
    obtain ⟨run', others', rfl, hrun', hruns'⟩ := h'.exists_cons
    obtain ⟨hfirst, hflags⟩ := List.cons.inj hflags
    have hdecision := decision_of_flags_eq hpaired hbounds hmodel hvalues.positive
      hothers.positive hvalues.first hothers.first hrun hrun' hfirst
    have hdecisions := ih hmodels hvalues.rest hothers.rest hruns hruns' hflags
    exact congrArg₂ List.cons hdecision hdecisions

/-- Runs that were decided alike are the same. -/
lemma runs_of_decisions_eq {models : List ServedModel} {runs runs' : List ModelRun}
    (h : RunsAt g names models values runs) (h' : RunsAt g names models others runs')
    (hdecisions : g.decisions models values = g.decisions models others) : runs = runs' := by
  induction models generalizing values others runs runs' with
  | nil =>
    rcases h with _ | _
    rcases h' with _ | _
    rfl
  | cons model rest ih =>
    obtain ⟨run, others, rfl, hrun, hruns⟩ := h.exists_cons
    obtain ⟨run', others', rfl, hrun', hruns'⟩ := h'.exists_cons
    obtain ⟨hdecision, hdecisions⟩ := List.cons.inj hdecisions
    have hfirst := run_of_decision_eq hrun hrun' hdecision
    have hothers := ih hruns hruns' hdecisions
    exact congrArg₂ List.cons hfirst hothers

/-- In a registry of numbered names all runs have numbered variants. -/
lemma hasNumberedFlags (hnumbered : names.Numbered) (hbounds : g.bounds.check = .ok ())
    {models : List ServedModel} (hmodels : ∀ model ∈ models, model.WellFormed)
    (hvalues : Covers values models) {runs : List ModelRun}
    (h : RunsAt g names models values runs) : List.Forall₂ HasNumberedFlags models runs := by
  induction models generalizing values runs with
  | nil =>
    cases h
    exact .nil
  | cons model rest ih =>
    obtain ⟨hmodel, hmodels⟩ := List.forall_mem_cons.mp hmodels
    obtain ⟨run, others, rfl, hrun, hruns⟩ := h.exists_cons
    obtain ⟨payload, hname, hflags⟩ :=
      hrun.flags_eq_of_values hbounds hmodel hvalues.positive hvalues.first
    obtain ⟨index, hindex⟩ := hnumbered _ _ _ hname
    exact .cons ⟨index, _, hindex ▸ hflags⟩ (ih hmodels hvalues.rest hruns)

/-- The flags of a model's run are a field of its JSON form. -/
lemma field?_toJson (run : ModelRun) :
    run.toJson.field? "perf_config" = some (.obj run.flags.fields) := by
  rw [ModelRun.toJson]
  split_ifs <;>
  simp [Json.object, Fields.ofList, Fields.update, Json.field?, Json.fields?, Fields.get?_set]

/-- The JSON form of a run tells its flags. -/
lemma flags_of_toJson_eq {config config' : RunConfig} (h : config.toJson = config'.toJson) :
    config.models.map (·.flags) = config'.models.map (·.flags) := by
  have hread : ∀ runs : List ModelRun, (runs.map ModelRun.toJson).map (·.field? "perf_config") =
      (runs.map (·.flags)).map fun flags => some (.obj flags.fields) := by
    intro runs
    rw [List.map_map, List.map_map]
    exact List.map_congr_left fun run _ => field?_toJson run
  have hinjective : Function.Injective fun flags : BenchmarkFlags => some (Json.obj flags.fields) := by
    rintro ⟨fields⟩ ⟨others⟩ heq
    cases heq
    rfl
  have hlist := congrArg (fun runs => List.map (·.field? "perf_config") runs) (Json.arr.inj h)
  rw [hread, hread] at hlist
  exact List.map_injective_iff.mpr hinjective hlist

/-- Two runs that one registry describes have the same text exactly when they have the same JSON
form, and exactly when they were decided alike. -/
theorem text_eq_iff (hpaired : names.Paired) (hnumbered : names.Numbered)
    (hbounds : g.bounds.check = .ok ()) {models : List ServedModel}
    (hmodels : ∀ model ∈ models, model.WellFormed) (hvalues : Covers values models)
    (hothers : Covers others models) {config config' : RunConfig}
    (h : RunsAt g names models values config.models)
    (h' : RunsAt g names models others config'.models) :
    (config.text = config'.text ↔ config.toJson = config'.toJson) ∧
      (config.text = config'.text ↔ g.decisions models values = g.decisions models others) := by
  have hnumbers := hasNumberedFlags hnumbered hbounds hmodels hvalues h
  have hnumbers' := hasNumberedFlags hnumbered hbounds hmodels hothers h'
  -- Equal flags make the runs equal, and both the text and the JSON form tell the flags.
  have hdecided : config.models.map (·.flags) = config'.models.map (·.flags) →
      g.decisions models values = g.decisions models others :=
    decisions_of_flags_eq hpaired hbounds hmodels hvalues hothers h h'
  have hsame : g.decisions models values = g.decisions models others → config = config' := by
    intro hdecisions
    have hruns : config.models = config'.models := runs_of_decisions_eq h h' hdecisions
    cases config
    cases config'
    exact congrArg RunConfig.mk hruns
  have htext : config.text = config'.text →
      g.decisions models values = g.decisions models others := by
    intro htext
    exact hdecided (flags_of_text_eq hnumbers hnumbers' htext)
  have hjson : config.toJson = config'.toJson →
      g.decisions models values = g.decisions models others := by
    intro hjson
    exact hdecided (flags_of_toJson_eq hjson)
  refine ⟨⟨?_, ?_⟩, ⟨htext, ?_⟩⟩
  · intro heq
    rw [hsame (htext heq)]
  · intro heq
    rw [hsame (hjson heq)]
  · intro hdecisions
    rw [hsame hdecisions]

/-! ### The default run -/

/-- The default configuration of a unit is an object. -/
lemma isObject_standard {unit : ServedUnit} (h : unit.baseline.IsObject) :
    unit.standard.IsObject := by
  rw [ServedUnit.standard]
  split_ifs
  · exact ServedUnit.isObject_batched h
  · exact h

/-- A default run has the default variant of its model, with the concurrency that its default drafts
ask for. -/
lemma IsRun.standard_flags_eq (hmodel : model.WellFormed)
    (h : IsRun g names true model (model.units.map g.defaultDraft) run) :
    run.variant = VariantName.standard model.name ∧
      run.flags = model.benchmarkFlags (VariantName.standard model.name)
        (g.concurrencyOf model ((model.units.map g.defaultDraft).map (·.concurrency))) := by
  obtain ⟨payload, hname, hflags⟩ := h.flags_eq hmodel fun hplain => by
    rw [ServedModel.units_of_plain hplain]
    exact ⟨_, [], rfl, rfl, isObject_standard hmodel.baseline⟩
  have hstandard : run.variant = VariantName.standard model.name := hname
  exact ⟨hstandard, hstandard ▸ hflags⟩

/-- The text of a default run is not that of a run with numbered variants. -/
lemma text_ne_standard {models : List ServedModel} (hnonempty : models ≠ [])
    (hmodels : ∀ model ∈ models, model.WellFormed) {config standard : RunConfig}
    (hconfig : List.Forall₂ HasNumberedFlags models config.models)
    (hstandard : AreRuns g names true
      (models.map fun model => (model, model.units.map g.defaultDraft)) standard) :
    config.text ≠ standard.text := by
  obtain ⟨runs⟩ := config
  obtain ⟨standards⟩ := standard
  rcases models with _ | ⟨model, rest⟩
  · exact absurd rfl hnonempty
  · rcases hconfig with _ | ⟨hrun, hruns⟩
    rcases hstandard with _ | ⟨hdefault, hdefaults⟩
    obtain ⟨-, hflags⟩ := hdefault.standard_flags_eq (hmodels model List.mem_cons_self)
    exact (text_standard_ne hrun hflags _ _).symm

end Generator

/-! ### Identity of runs -/

namespace Session

open Generator

variable {s : Session} {g : Generator}

/-- The session's generator is a given one that may have moved. -/
def IsOver (s : Session) (g : Generator) : Prop :=
  ∃ cursor phase, s.generator = { g with cursor := cursor, phase := phase }

/-- Calls leave the generator what it is, but for its cursor and its phase. -/
lemma IsOver.run (h : s.IsOver g) (calls : List SessionCall) : (s.run calls).IsOver g := by
  obtain ⟨cursor, phase, hs⟩ := h
  obtain ⟨later, hrun, -⟩ := run_generator s calls
  exact ⟨_, later, by rw [hrun, hs]⟩

/-- A session starts with its own generator. -/
lemma isOver_start (g : Generator) (names : VariantNames) : (Session.mk g names).IsOver g :=
  ⟨g.cursor, g.phase, rfl⟩

/-- A configuration that a coordinate is answered with is made of the runs at its values, wherever the
generator stands, and a later registry with the same names describes them still. -/
lemma runsAt_of_call {c : Coordinate} {values : List UnitValues} {config : RunConfig}
    (hs : s.IsOver g) (hvalues : g.space.dimensions.valuesAt c = .ok values)
    (h : (s.call (.configAt c)).1 = .ok (.config config)) {later : VariantNames}
    (hkept : (s.call (.configAt c)).2.names.Assigned false later) :
    RunsAt g later g.models values config.models := by
  obtain ⟨cursor, phase, hs⟩ := hs
  have hvalues' : s.generator.space.dimensions.valuesAt c = .ok values := by
    rw [hs]
    exact hvalues
  have hruns := (configAt_yields hvalues').holds s.names config (configAt_of_call h)
  have hruns' : RunsAt g (s.call (.configAt c)).2.names g.models values config.models := by
    rw [AreRuns, hs, drafts_moved] at hruns
    rw [RunsAt, call, hs]
    exact hruns
  exact hruns'.imp fun _ _ hrun => hrun.mono hkept

/-- The configuration at a coordinate is made of the runs at its values, wherever the generator
stands, and a later registry with the same names describes them still. -/
lemma call_configAt_ok {c : Coordinate} {values : List UnitValues} (hs : s.IsOver g)
    (hvalues : g.space.dimensions.valuesAt c = .ok values) {later : VariantNames}
    (hkept : (s.call (.configAt c)).2.names.Assigned false later) (hroom : later.HasRoom) :
    ∃ config, (s.call (.configAt c)).1 = .ok (.config config) ∧
      RunsAt g later g.models values config.models := by
  have hvalues' : s.generator.space.dimensions.valuesAt c = .ok values := by
    obtain ⟨cursor, phase, hs⟩ := hs
    rw [hs]
    exact hvalues
  obtain ⟨config, hok, -⟩ :=
    (configAt_yields hvalues').answers s.names fun _ => hkept.hasRoom hroom
  have hanswer : (s.call (.configAt c)).1 = .ok (.config config) := by
    rw [call, hok]
    rfl
  exact ⟨config, hanswer, runsAt_of_call hs hvalues hanswer hkept⟩

/-- The default configuration is made of the default runs, wherever the generator stands. -/
lemma call_standard_ok (hs : s.IsOver g) {config : RunConfig}
    (h : (s.call .standard).1 = .ok (.config config)) :
    ∃ cursor phase names, AreRuns { g with cursor := cursor, phase := phase } names true
      (g.models.map fun model => (model, model.units.map g.defaultDraft)) config := by
  obtain ⟨cursor, phase, hs⟩ := hs
  obtain ⟨standard, hcall, hruns⟩ := s.exists_call_standard
  rw [hcall] at h
  cases h
  rw [hs] at hruns
  exact ⟨cursor, phase, s.names, hruns⟩

/-- No default run has the text of a run with numbered variants. -/
lemma text_ne_call_standard (hs : s.IsOver g) (hnonempty : g.models ≠ [])
    (hmodels : ∀ model ∈ g.models, model.WellFormed) {config standard : RunConfig}
    (hconfig : List.Forall₂ HasNumberedFlags g.models config.models)
    (h : (s.call .standard).1 = .ok (.config standard)) : config.text ≠ standard.text := by
  obtain ⟨cursor, phase, names, hruns⟩ := call_standard_ok hs h
  exact text_ne_standard hnonempty hmodels hconfig hruns

/-- Take a generator over models that were built, and a registry whose names were all assigned, and
any calls that adopt no name and do not clear the registry.  Two runs at coordinates of the right
size, one of them after the first calls and the other one after more calls, have the same text if
and only if they have the same JSON form, and if and only if they were decided alike: all units have
the same batch size and the same number of instances, and all models have the same concurrency.  No
default run, whenever it is asked for, has the text of either. -/
theorem run_text_eq_iff {space : SearchSpace} {bounds : Bounds} {models : List ServedModel}
    {registry : VariantNames} {g : Generator}
    (hg : Generator.create space bounds models (some registry) = .ok g)
    (hmodels : ∀ model ∈ models, model.IsBuilt)
    (hregistry : VariantNames.empty.Assigned false registry) {before between : List SessionCall}
    (hbefore : ∀ c ∈ before, c.OnlyAssigns) (hbetween : ∀ c ∈ between, c.OnlyAssigns)
    {c₁ c₂ : Coordinate} (h₁ : c₁.size = space.dimensions.slots.length)
    (h₂ : c₂.size = space.dimensions.slots.length)
    (hroom : (((((Session.mk g registry).run before).call (.configAt c₁)).2.run between).call
      (.configAt c₂)).2.names.HasRoom) :
    let s₁ := (Session.mk g registry).run before
    let s₂ := (s₁.call (.configAt c₁)).2.run between
    ∃ r₁ r₂ values₁ values₂,
      (s₁.call (.configAt c₁)).1 = .ok (.config r₁) ∧
      (s₂.call (.configAt c₂)).1 = .ok (.config r₂) ∧
      space.dimensions.valuesAt c₁ = .ok values₁ ∧ space.dimensions.valuesAt c₂ = .ok values₂ ∧
      (r₁.text = r₂.text ↔ r₁.toJson = r₂.toJson) ∧
      (r₁.text = r₂.text ↔ g.decisions models values₁ = g.decisions models values₂) ∧
      ∀ calls standard, (((Session.mk g registry).run calls).call .standard).1 =
        .ok (.config standard) → r₁.text ≠ standard.text ∧ r₂.text ≠ standard.text := by
  intro s₁ s₂
  obtain ⟨rfl, hnonempty, hbounds, hunits⟩ := create_eq_ok hg
  have hformed : ∀ model ∈ models, model.WellFormed := fun model hmem =>
    (hmodels model hmem).wellFormed
  -- The registry after the second run has all names of the first run, too.
  have hstart : registry.Assigned false s₁.names := run_assigned ⟨_, registry⟩ hbefore
  have hfirst : s₁.names.Assigned false (s₁.call (.configAt c₁)).2.names :=
    s₁.call_assigned (by intro own hown; cases hown)
  have hsecond : s₂.names.Assigned false (s₂.call (.configAt c₂)).2.names :=
    s₂.call_assigned (by intro own hown; cases hown)
  have hkept := (run_assigned _ hbetween).trans hsecond
  have hall := hregistry.trans (hstart.trans (hfirst.trans hkept))
  have hpaired := hall.paired VariantNames.paired_empty
  have hnumbered := hall.numbered VariantNames.numbered_empty
  -- Both runs are described by that registry.
  have hs₁ : s₁.IsOver _ := (isOver_start _ registry).run before
  have hs₂ : s₂.IsOver _ := (show (s₁.call (.configAt c₁)).2.IsOver _ from hs₁).run between
  obtain ⟨values₁, hvalues₁, hcovers₁⟩ := exists_covers hunits h₁
  obtain ⟨values₂, hvalues₂, hcovers₂⟩ := exists_covers hunits h₂
  obtain ⟨r₁, hok₁, hruns₁⟩ := call_configAt_ok hs₁ hvalues₁ hkept hroom
  obtain ⟨r₂, hok₂, hruns₂⟩ :=
    call_configAt_ok hs₂ hvalues₂ (VariantNames.Assigned.refl false _) hroom
  obtain ⟨hjson, hdecided⟩ :=
    text_eq_iff hpaired hnumbered hbounds hformed hcovers₁ hcovers₂ hruns₁ hruns₂
  refine ⟨r₁, r₂, values₁, values₂, hok₁, hok₂, hvalues₁, hvalues₂, hjson, hdecided, ?_⟩
  intro calls standard hstandard
  have hflags₁ := hasNumberedFlags hnumbered hbounds hformed hcovers₁ hruns₁
  have hflags₂ := hasNumberedFlags hnumbered hbounds hformed hcovers₂ hruns₂
  have hover := fun start => (isOver_start start registry).run calls
  exact ⟨text_ne_call_standard (hover _) hnonempty hformed hflags₁ hstandard,
    text_ne_call_standard (hover _) hnonempty hformed hflags₂ hstandard⟩

/-- A model that is a stage of `pipeline` twice. -/
def stage : ServedUnit where
  name := "bert"
  baseline := ⟨.obj [("input", .arr []), ("max_batch_size", .int 8), ("name", .str "bert")]⟩
  flags := []
  cpuOnly := false

/-- An ensemble of one model with itself. -/
def pipeline : ServedModel where
  name := "pipeline"
  baseline := ⟨.obj
    [("ensemble_scheduling", .obj [("step", .arr
        [.obj [("model_name", .str "bert")], .obj [("model_name", .str "bert")]])]),
      ("input", .arr []), ("max_batch_size", .int 0), ("name", .str "pipeline")]⟩
  flags := []
  cpuOnly := false
  stages := [stage, stage]

/-- The ensemble `pipeline` can be built. -/
lemma isBuilt_pipeline : pipeline.IsBuilt := by
  let lookup : BaselineLookup := fun name =>
    .ok (if name = "pipeline" then pipeline.baseline.content else stage.baseline.content)
  have hcreated : ServedModel.create "pipeline" (some lookup) Json.empty false =
      .ok pipeline := rfl
  exact .create hcreated

/-- The batch sizes of both stages of `pipeline`. -/
def batchSizes : DimensionSet where
  slots := [⟨0, ⟨Dimension.batchSize, .exponential, 0⟩⟩, ⟨1, ⟨Dimension.batchSize, .exponential, 0⟩⟩]
  units := 2

/-- A generator for `pipeline`. -/
def pipelineGenerator : Generator where
  space := { dimensions := batchSizes }
  bounds := {}
  models := [pipeline]
  cursor := ⟨[0, 0]⟩

/-- Swapping the batch sizes of two stages gives a run of another text, though both runs serve the
same two variants of the stage. -/
theorem run_text_eq_iff_swapped :
    Generator.create { dimensions := batchSizes } {} [pipeline] (some .empty) =
      .ok pipelineGenerator ∧
    ∃ r₁ r₂,
      ((Session.mk pipelineGenerator .empty).call (.configAt ⟨[0, 1]⟩)).1 = .ok (.config r₁) ∧
      (((Session.mk pipelineGenerator .empty).call (.configAt ⟨[0, 1]⟩)).2.call
        (.configAt ⟨[1, 0]⟩)).1 = .ok (.config r₂) ∧ r₁.text ≠ r₂.text := by
  have hg : Generator.create { dimensions := batchSizes } {} [pipeline] (some .empty) =
      .ok pipelineGenerator := rfl
  have hroom : (((Session.mk pipelineGenerator .empty).call (.configAt ⟨[0, 1]⟩)).2.call
      (.configAt ⟨[1, 0]⟩)).2.names.HasRoom :=
    VariantNames.hasRoom_of_entities (by decide +kernel)
  obtain ⟨r₁, r₂, values₁, values₂, hr₁, hr₂, hvalues₁, hvalues₂, -, hdecided, -⟩ :=
    @run_text_eq_iff _ _ _ _ _ hg (by simpa using isBuilt_pipeline) (VariantNames.Assigned.refl false .empty)
      [] [] (by simp) (by simp) ⟨[0, 1]⟩ ⟨[1, 0]⟩ rfl rfl hroom
  refine ⟨hg, r₁, r₂, hr₁, hr₂, ?_⟩
  intro htext
  have hsame := hdecided.mp htext
  rw [← Except.ok.inj hvalues₁, ← Except.ok.inj hvalues₂] at hsame
  exact absurd hsame (by decide +kernel)

end Session

end ServingTuner
