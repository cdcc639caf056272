import Mathlib
import ServingTuner.Proofs.Generator.Resolution
import ServingTuner.Proofs.Generator.Sharing
import ServingTuner.Proofs.VariantNames.Reserved

/-!
# One run in two registries

Two registries with different pasts give the variants of a run different numbers.  The numbers show
in the flags of the run, and for an ensemble in the schedule of its variant, so even the payloads
that the registries are asked for differ.

What is decided for a run does not differ.  Such runs are twins (`Generator.AreTwins`): they have
the same reading (`AreTwins.reading_eq`), and runs of one registry have the same text exactly if
their twins have (`AreTwins.text_iff`).
-/

namespace ServingTuner

/-! ### What a run tells besides names -/

/-- What a run tells besides the names of its variants: whether it is the default one, and what it
decides for every model. -/
structure Reading where
  isDefault : Bool
  decisions : List Decision
  deriving DecidableEq

/-- The batch size and the number of instances of a configuration. -/
def ModelConfig.sizes (config : ModelConfig) : ℤ × ℤ := (config.maxBatchSize, config.instanceCount)

namespace ModelRun

/-- What the part of a model in a run decides, as its configurations and its flags tell it. -/
def decision (run : ModelRun) : Decision :=
  ⟨run.unitConfigs.map ModelConfig.sizes, run.flags.concurrency⟩

/-- Whether a model is served as its default variant. -/
def isDefault (run : ModelRun) : Bool := run.variant == VariantName.standard run.model

/-- Two parts of runs tell the same besides names. -/
def TellsSame (run other : ModelRun) : Prop :=
  run.isDefault = other.isDefault ∧ run.decision = other.decision

end ModelRun

/-- What a run tells besides the names of its variants. -/
def RunConfig.reading (config : RunConfig) : Reading :=
  ⟨config.models.all ModelRun.isDefault, config.models.map ModelRun.decision⟩

/-- Runs whose parts tell the same have the same reading. -/
lemma RunConfig.reading_congr {config other : RunConfig}
    (h : List.Forall₂ ModelRun.TellsSame config.models other.models) :
    config.reading = other.reading := by
  have hdefault : List.Forall₂ (· = ·) (config.models.map ModelRun.isDefault)
      (other.models.map ModelRun.isDefault) :=
    List.rel_map (fun _ _ hsame => hsame.1) h
  have hdecision : List.Forall₂ (· = ·) (config.models.map ModelRun.decision)
      (other.models.map ModelRun.decision) :=
    List.rel_map (fun _ _ hsame => hsame.2) h
  rw [List.forall₂_eq_eq_eq] at hdefault hdecision
  have hall : ∀ runs : List ModelRun, runs.all ModelRun.isDefault =
      (runs.map ModelRun.isDefault).all id := by
    intro runs
    rw [List.all_map]
    rfl
  rw [reading, reading, hall, hall, hdefault, hdecision]

/-- A new name changes neither the batch size nor the number of instances. -/
lemma ModelConfig.sizes_withName {config : ModelConfig} (h : config.IsObject) (name : String) :
    (config.withName name).sizes = config.sizes := by
  rw [sizes, sizes, maxBatchSize, maxBatchSize, instanceCount, instanceCount,
    ServedUnit.field?_withName h name (by decide), ServedUnit.field?_withName h name (by decide)]

/-- The name of the variant does not change the concurrency in the flags of a benchmark. -/
lemma ServedUnit.concurrency_benchmarkFlags_congr (unit : ServedUnit) (variant other : String)
    (concurrency : ℤ) :
    (unit.benchmarkFlags variant concurrency).concurrency =
      (unit.benchmarkFlags other concurrency).concurrency := by
  simp only [BenchmarkFlags.concurrency, BenchmarkFlags.get?, benchmarkFlags, BenchmarkFlags.set,
    Fields.get?_set, if_true]

namespace Generator

variable {g : Generator} {names names' : VariantNames} {model : ServedModel}
  {values : List UnitValues}

/-! ### Variants and parts of runs -/

/-- The variants of some drafts have the same sizes in two registries. -/
lemma AreVariants.map_sizes_eq {drafts : List Draft} {variants variants' : List ModelConfig}
    (h : AreVariants names false drafts variants) (h' : AreVariants names' false drafts variants')
    (hobjects : ∀ draft ∈ drafts, draft.config.IsObject) :
    variants.map ModelConfig.sizes = variants'.map ModelConfig.sizes := by
  induction drafts generalizing variants variants' with
  | nil =>
    rcases h with _ | _
    rcases h' with _ | _
    rfl
  | cons draft rest ih =>
    obtain ⟨hobject, hobjects⟩ := List.forall_mem_cons.mp hobjects
    rcases h with _ | ⟨⟨name, -, rfl⟩, hrest⟩
    rcases h' with _ | ⟨⟨name', -, rfl⟩, hrest'⟩
    rw [List.map_cons, List.map_cons, ModelConfig.sizes_withName hobject,
      ModelConfig.sizes_withName hobject, ih hrest hrest' hobjects]

/-- The drafts of a model at positive values are objects. -/
lemma isObject_of_mem_draftsOf (hbounds : g.bounds.check = .ok ()) (hmodel : model.WellFormed)
    (hvalues : ∀ own ∈ values, PositiveValues own) :
    ∀ draft ∈ g.draftsOf model values, draft.config.IsObject := by
  intro draft hdraft
  obtain ⟨i, hi⟩ := List.mem_iff_getElem?.mp hdraft
  obtain ⟨unit, own, hunit, hown, rfl⟩ := List.getElem?_zipWith_eq_some.mp hi
  exact ServedUnit.isObject_tuned (isObject_of_mem_units hmodel unit (List.mem_of_getElem? hunit))
    (one_le_batchSize hbounds unit (hvalues own (List.mem_of_getElem? hown)))

/-- The runs of a model at the same values tell the same in two registries, but for names. -/
lemma IsRun.tellsSame {run run' : ModelRun} (hbounds : g.bounds.check = .ok ())
    (hmodel : model.WellFormed) (hvalues : ∀ own ∈ values, PositiveValues own)
    (hlength : model.unitCount ≤ values.length) (hnumbered : names.Numbered)
    (hnumbered' : names'.Numbered) (h : IsRun g names false model (g.draftsOf model values) run)
    (h' : IsRun g names' false model (g.draftsOf model values) run') : run.TellsSame run' := by
  have hdefault : ∀ {registry : VariantNames} {own : ModelRun}, registry.Numbered →
      IsRun g registry false model (g.draftsOf model values) own → own.isDefault = false := by
    intro registry own hregistry hown
    obtain ⟨payload, hname, -⟩ := hown.flags_eq_of_values hbounds hmodel hvalues hlength
    obtain ⟨index, hindex⟩ := hregistry _ _ _ hname
    obtain ⟨variants, config, -, -, rfl⟩ := hown
    rw [ModelRun.isDefault, hindex]
    exact beq_eq_false_iff_ne.mpr (VariantName.standard_ne_numbered model.name index).symm
  obtain ⟨-, -, hflags⟩ := h.flags_eq_of_values hbounds hmodel hvalues hlength
  obtain ⟨-, -, hflags'⟩ := h'.flags_eq_of_values hbounds hmodel hvalues hlength
  have hsizes := (h.unitConfigs (length_draftsOf hlength)).2.map_sizes_eq
    (h'.unitConfigs (length_draftsOf hlength)).2 (isObject_of_mem_draftsOf hbounds hmodel hvalues)
  refine ⟨?_, ?_⟩
  · rw [hdefault hnumbered h, hdefault hnumbered' h']
  · rw [ModelRun.decision, ModelRun.decision, hsizes, hflags, hflags',
      model.concurrency_benchmarkFlags_congr run.variant run'.variant]

/-- The runs of all models at the same values tell the same in two registries, but for names. -/
lemma RunsAt.tellsSame {models : List ServedModel} {runs runs' : List ModelRun}
    (hbounds : g.bounds.check = .ok ()) (hmodels : ∀ model ∈ models, model.WellFormed)
    (hvalues : Covers values models) (hnumbered : names.Numbered) (hnumbered' : names'.Numbered)
    (h : RunsAt g names models values runs) (h' : RunsAt g names' models values runs') :
    List.Forall₂ ModelRun.TellsSame runs runs' := by
  induction models generalizing values runs runs' with
  | nil =>
    rcases h with _ | _
    rcases h' with _ | _
    exact .nil
  | cons model rest ih =>
    obtain ⟨hmodel, hmodels⟩ := List.forall_mem_cons.mp hmodels
    obtain ⟨run, others, rfl, hrun, hruns⟩ := h.exists_cons
    obtain ⟨run', others', rfl, hrun', hruns'⟩ := h'.exists_cons
    have hfirst := hrun.tellsSame hbounds hmodel hvalues.positive hvalues.first hnumbered
      hnumbered' hrun'
    exact .cons hfirst (ih hmodels hvalues.rest hruns hruns')

/-! ### Twins -/

/-- What a generator has once it was created over models that were built, wherever it stands. -/
structure IsComplete (g : Generator) : Prop where
  nonempty : g.models ≠ []
  formed : ∀ model ∈ g.models, model.WellFormed
  checked : g.bounds.check = .ok ()
  units : g.space.dimensions.units = countUnits g.models

/-- A new generator over models that were built is complete. -/
lemma isComplete_of_create {space : SearchSpace} {bounds : Bounds} {models : List ServedModel}
    {registry : Option VariantNames} (h : create space bounds models registry = .ok g)
    (hmodels : ∀ model ∈ models, model.IsBuilt) : g.IsComplete := by
  obtain ⟨rfl, hnonempty, hchecked, hunits⟩ := create_eq_ok h
  exact ⟨hnonempty, fun model hmem => (hmodels model hmem).wellFormed, hchecked, hunits⟩

/-- Two runs that a generator makes with one registry and with another one: both are the default
one, or both are the runs at the same values. -/
inductive AreTwins (g : Generator) (names names' : VariantNames) : RunConfig → RunConfig → Prop
  | standard {config : RunConfig}
    (h : ((Session.mk g .empty).call .standard).1 = .ok (.config config)) :
    AreTwins g names names' config config
  | decided {values : List UnitValues} {config config' : RunConfig}
    (hvalues : Covers values g.models) (h : RunsAt g names g.models values config.models)
    (h' : RunsAt g names' g.models values config'.models) : AreTwins g names names' config config'

variable {config config' other other' : RunConfig}

/-- Twins stay twins while others are named. -/
lemma AreTwins.mono {later later' : VariantNames} (h : g.AreTwins names names' config config')
    (hnames : names.Assigned false later) (hnames' : names'.Assigned false later') :
    g.AreTwins later later' config config' := by
  cases h with
  | standard h => exact .standard h
  | decided hvalues h h' =>
    exact .decided hvalues (h.imp fun _ _ hrun => hrun.mono hnames)
      (h'.imp fun _ _ hrun => hrun.mono hnames')

/-- The default configurations of two sessions are twins, whatever else was named in either. -/
lemma AreTwins.of_standard {s t : Session} (halike : g.Alike s.generator)
    (halike' : g.Alike t.generator) (hnames : VariantNames.empty.Assigned false s.names)
    (hnames' : VariantNames.empty.Assigned false t.names)
    (h : (s.call .standard).1 = .ok (.config config))
    (h' : (t.call .standard).1 = .ok (.config config')) :
    g.AreTwins names names' config config' := by
  obtain ⟨standard, hcall, -⟩ := (Session.mk g .empty).exists_call_standard
  have hstandard : ((Session.mk g .empty).call .standard).1 = .ok (.config standard) :=
    congrArg Prod.fst hcall
  rw [Session.call_standard_again hstandard halike hnames.keeps] at h
  rw [Session.call_standard_again hstandard halike' hnames'.keeps] at h'
  cases h
  cases h'
  exact .standard hstandard

/-- The configurations of two sessions at a coordinate are twins. -/
lemma AreTwins.of_configAt (hg : g.IsComplete) {s t : Session} (halike : g.Alike s.generator)
    (halike' : g.Alike t.generator) {c : Coordinate}
    (hsize : c.size = g.space.dimensions.slots.length)
    (h : (s.call (.configAt c)).1 = .ok (.config config))
    (h' : (t.call (.configAt c)).1 = .ok (.config config')) :
    g.AreTwins (s.call (.configAt c)).2.names (t.call (.configAt c)).2.names config config' := by
  obtain ⟨values, hvalues, hcovers⟩ := exists_covers hg.units hsize
  have hover : s.IsOver g := ⟨_, _, halike.eq_moved⟩
  have hover' : t.IsOver g := ⟨_, _, halike'.eq_moved⟩
  exact .decided hcovers (Session.runsAt_of_call hover hvalues h (.refl false _))
    (Session.runsAt_of_call hover' hvalues h' (.refl false _))

/-- Twins have the same reading. -/
theorem AreTwins.reading_eq (hg : g.IsComplete) (hnames : VariantNames.empty.Assigned false names)
    (hnames' : VariantNames.empty.Assigned false names')
    (h : g.AreTwins names names' config config') : config.reading = config'.reading := by
  cases h with
  | standard => rfl
  | decided hvalues h h' =>
    exact RunConfig.reading_congr (h.tellsSame hg.checked hg.formed hvalues
      (hnames.numbered VariantNames.numbered_empty) (hnames'.numbered VariantNames.numbered_empty)
      h')

/-- No run at values has the text of the default one. -/
lemma IsComplete.text_ne_standard {standard : RunConfig} (hg : g.IsComplete)
    (hnames : VariantNames.empty.Assigned false names) (hvalues : Covers values g.models)
    (h : RunsAt g names g.models values config.models)
    (hstandard : ((Session.mk g .empty).call .standard).1 = .ok (.config standard)) :
    config.text ≠ standard.text := by
  have hflags := hasNumberedFlags (hnames.numbered VariantNames.numbered_empty) hg.checked
    hg.formed hvalues h
  exact Session.text_ne_call_standard (Session.isOver_start g .empty) hg.nonempty hg.formed hflags
    hstandard

/-- Two runs have the same text in one registry exactly if their twins have in the other one. -/
theorem AreTwins.text_iff (hg : g.IsComplete) (hnames : VariantNames.empty.Assigned false names)
    (hnames' : VariantNames.empty.Assigned false names')
    (h : g.AreTwins names names' config config') (hother : g.AreTwins names names' other other') :
    config.text = other.text ↔ config'.text = other'.text := by
  cases h with
  | standard hconfig =>
    cases hother with
    | standard => exact Iff.rfl
    | decided hvalues h h' =>
      exact iff_of_false (hg.text_ne_standard hnames hvalues h hconfig).symm
        (hg.text_ne_standard hnames' hvalues h' hconfig).symm
  | decided hvalues h h' =>
    cases hother with
    | standard hother =>
      exact iff_of_false (hg.text_ne_standard hnames hvalues h hother)
        (hg.text_ne_standard hnames' hvalues h' hother)
    | decided hothers ho ho' =>
      -- Both sides say that the runs were decided alike, which names no registry.
      have hdecided := (text_eq_iff (hnames.paired VariantNames.paired_empty)
        (hnames.numbered VariantNames.numbered_empty) hg.checked hg.formed hvalues hothers h ho).2
      have hdecided' := (text_eq_iff (hnames'.paired VariantNames.paired_empty)
        (hnames'.numbered VariantNames.numbered_empty) hg.checked hg.formed hvalues hothers h'
        ho').2
      exact hdecided.trans hdecided'.symm

end Generator

end ServingTuner
