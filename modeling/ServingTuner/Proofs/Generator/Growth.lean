import Mathlib
import ServingTuner.Proofs.Generator.Frame
import ServingTuner.Proofs.Generator.Twins

/-!
# Greater coordinates ask for no less

The value of a dimension does not fall while its slot grows, and neither does anything that is made
of the values: clamping, the product that is cut off at the greatest signed integer, and the least
over the stages of an ensemble are all monotone.  So at a coordinate that is greater in every slot, no
unit has a lesser batch size or fewer instances, and no model has a lesser concurrency
(`call_configAt_mono`).
-/

namespace ServingTuner

/-! ### Values -/

namespace Fields

/-- Tables under the same names with values that are no less in the second one. -/
def AtMost (fields larger : Fields ℤ) : Prop :=
  ∀ name, Option.Rel (· ≤ ·) (get? fields name) (get? larger name)

/-- A value that may be missing, and the same one for both where it is. -/
lemma getD_mono {x y : Option ℤ} (h : Option.Rel (· ≤ ·) x y) (fallback : ℤ) :
    x.getD fallback ≤ y.getD fallback := by
  rcases h with hle | _
  · exact hle
  · exact le_rfl

/-- Tables keep their order when each is changed under the same names, in the same order. -/
lemma AtMost.update {fields larger changes others : Fields ℤ} (h : fields.AtMost larger)
    (hchanges : List.Forall₂ (fun own other => own.1 = other.1 ∧ own.2 ≤ other.2) changes others) :
    (Fields.update fields changes).AtMost (Fields.update larger others) := by
  induction hchanges generalizing fields larger with
  | nil => exact h
  | @cons own other changes others hfirst hrest ih =>
    show (Fields.update (set own.1 own.2 fields) changes).AtMost
      (Fields.update (set other.1 other.2 larger) others)
    refine ih fun name => ?_
    rw [get?_set, get?_set, hfirst.1]
    split_ifs
    · exact .some hfirst.2
    · exact h name

end Fields

namespace DimensionSet

/-- Values that are no less stay so at the same slots. -/
lemma forall₂_zip (slots : List Slot) {values others : List UInt32}
    (h : List.Forall₂ (· ≤ ·) values others) :
    List.Forall₂ (fun own other => own.1 = other.1 ∧ own.2 ≤ other.2) (slots.zip values)
      (slots.zip others) := by
  induction h generalizing slots with
  | nil => simp
  | cons hfirst _ ih =>
    cases slots with
    | nil => exact .nil
    | cons slot slots => exact .cons ⟨rfl, hfirst⟩ (ih slots)

/-- Coordinates that are greater in every slot give all units values that are no less. -/
lemma valuesAt_mono {set : DimensionSet} {c larger : Coordinate} {values others : List UnitValues}
    (h : List.Forall₂ (· ≤ ·) c.slots larger.slots) (hvalues : set.valuesAt c = .ok values)
    (hothers : set.valuesAt larger = .ok others) : List.Forall₂ Fields.AtMost values others := by
  rw [valuesAt] at hvalues hothers
  split_ifs at hvalues hothers
  cases hvalues
  cases hothers
  rw [List.forall₂_map_left_iff, List.forall₂_map_right_iff, List.forall₂_same]
  intro unit _
  have hempty : Fields.AtMost [] [] := fun _ => .none
  refine hempty.update (List.rel_filterMap ?_ (forall₂_zip set.slots h))
  rintro ⟨slot, value⟩ ⟨_, other⟩ ⟨rfl, hle⟩
  dsimp only
  split_ifs
  · exact .some ⟨rfl, slot.dimension.valueAt_mono hle⟩
  · exact .none

end DimensionSet

/-! ### Bounds -/

/-- Clamping is monotone. -/
lemma Limits.clamp_mono (limits : Limits) {value larger : ℤ} (h : value ≤ larger) :
    limits.clamp value ≤ limits.clamp larger := by
  rcases limits with ⟨_ | lower, _ | upper⟩
  · exact h
  · exact min_le_min_right upper h
  · exact max_le_max_right lower h
  · exact max_le_max_right lower (min_le_min_right upper h)

/-- More items in a batch and more instances make no lesser concurrency by the formula. -/
lemma Bounds.formulaConcurrency_mono (bounds : Bounds) (hmultiplier : 1 ≤ bounds.multiplier)
    {batchSize instanceCount larger more : ℤ} (hbatch : 1 ≤ batchSize)
    (hinstances : 1 ≤ instanceCount) (hlarger : batchSize ≤ larger) (hmore : instanceCount ≤ more) :
    bounds.formulaConcurrency batchSize instanceCount ≤ bounds.formulaConcurrency larger more := by
  rw [bounds.formulaConcurrency_eq hbatch hinstances hmultiplier,
    bounds.formulaConcurrency_eq (hbatch.trans hlarger) (hinstances.trans hmore) hmultiplier]
  refine min_le_min_right maxSigned ?_
  gcongr
  all_goals omega

/-! ### Settings and decisions -/

/-- Settings that are no greater than others. -/
structure UnitSettings.AtMost (settings larger : UnitSettings) : Prop where
  batchSize : settings.batchSize ≤ larger.batchSize
  instanceCount : settings.instanceCount ≤ larger.instanceCount
  concurrency : settings.concurrency ≤ larger.concurrency

/-- A decision that is no greater than another one, for any unit and for the model. -/
structure Decision.AtMost (decision larger : Decision) : Prop where
  units : List.Forall₂ (fun own other => own.1 ≤ other.1 ∧ own.2 ≤ other.2) decision.units
    larger.units
  concurrency : decision.concurrency ≤ larger.concurrency

namespace Generator

variable {g : Generator} {names names' : VariantNames} {model : ServedModel}
  {values others : List UnitValues} {run larger : ModelRun}

/-- Values that are no less come to settings that are no less. -/
lemma settings_mono (hbounds : g.bounds.check = .ok ()) (unit : ServedUnit)
    {own other : UnitValues} (hown : PositiveValues own) (h : Fields.AtMost own other) :
    (g.settings unit own).AtMost (g.settings unit other) := by
  obtain ⟨-, -, -, hmultiplier⟩ := Bounds.check_eq_ok hbounds
  have hbatch : (g.settings unit own).batchSize ≤ (g.settings unit other).batchSize :=
    g.bounds.batchSize.clamp_mono (Fields.getD_mono (h Dimension.batchSize) _)
  have hcount : (g.settings unit own).instanceCount ≤ (g.settings unit other).instanceCount :=
    g.bounds.instanceCount.clamp_mono (Fields.getD_mono (h Dimension.instanceCount) _)
  have hformula := g.bounds.formulaConcurrency_mono hmultiplier (one_le_batchSize hbounds unit hown)
    (one_le_instanceCount hbounds unit hown) hbatch hcount
  refine ⟨hbatch, hcount, ?_⟩
  rw [concurrency_settings, concurrency_settings]
  refine g.bounds.concurrency.clamp_mono ?_
  cases g.space.mode with
  | formula => exact hformula
  | coordinate =>
    have hasked := h Dimension.concurrency
    generalize Fields.get? own Dimension.concurrency = asked at hasked ⊢
    generalize Fields.get? other Dimension.concurrency = more at hasked ⊢
    rcases hasked with hle | _
    · exact hle
    · exact hformula

/-- Values that are no less come to settings of all units that are no less. -/
lemma unitSettings_mono (hbounds : g.bounds.check = .ok ()) (units : List ServedUnit)
    (hvalues : ∀ own ∈ values, PositiveValues own) (h : List.Forall₂ Fields.AtMost values others) :
    List.Forall₂ UnitSettings.AtMost (g.unitSettings units values) (g.unitSettings units others) := by
  induction h generalizing units with
  | nil => simp [unitSettings]
  | cons hfirst _ ih =>
    obtain ⟨hown, hvalues⟩ := List.forall_mem_cons.mp hvalues
    cases units with
    | nil => exact .nil
    | cons unit units => exact .cons (settings_mono hbounds unit hown hfirst) (ih units hvalues)

/-- Units that ask for no less give their model no lesser concurrency. -/
lemma concurrencyOf_mono (model : ServedModel) {asked more : List ℤ}
    (h : List.Forall₂ (· ≤ ·) asked more) :
    g.concurrencyOf model asked ≤ g.concurrencyOf model more := by
  have hleast : asked.min?.getD 1 ≤ more.min?.getD 1 := by
    rcases h with _ | ⟨hfirst, hrest⟩
    · exact le_rfl
    · exact List.rel_foldl (P := (· ≤ ·)) (R := (· ≤ ·))
        (fun _ _ hbest _ _ hnext => min_le_min hbest hnext) hfirst hrest
  have hclamped := g.bounds.concurrency.clamp_mono hleast
  rw [concurrencyOf, concurrencyOf]
  split_ifs
  · cases g.bounds.forcedConcurrency with
    | none => exact hclamped
    | some forced => exact le_rfl
  · exact hclamped

/-- Values that are no less come to a decision that is no less. -/
lemma decision_mono (hbounds : g.bounds.check = .ok ()) (model : ServedModel)
    (hvalues : ∀ own ∈ values, PositiveValues own) (h : List.Forall₂ Fields.AtMost values others) :
    (g.decision model values).AtMost (g.decision model others) := by
  have hsettings := unitSettings_mono hbounds model.units hvalues h
  constructor
  · exact List.rel_map (fun _ _ hle => ⟨hle.batchSize, hle.instanceCount⟩) hsettings
  · exact concurrencyOf_mono model (List.rel_map (fun _ _ hle => hle.concurrency) hsettings)

/-! ### Runs -/

/-- The configurations and the flags of a run read back what was decided. -/
lemma IsRun.decision_eq (hbounds : g.ValidBounds) (hmodel : model.WellFormed)
    (hcounts : ∀ unit ∈ model.units, unit.baseline.instanceCount ≤ maxSigned)
    (hvalues : ∀ own ∈ values, CountValues own) (hlength : model.unitCount ≤ values.length)
    (h : IsRun g names false model (g.draftsOf model values) run) :
    run.decision = g.decision model values := by
  obtain ⟨hconcurrency, -⟩ := h.concurrency_eq hbounds hmodel hcounts hvalues hlength
  obtain ⟨-, hvariants⟩ := h.unitConfigs (length_draftsOf hlength)
  have hsizes : List.Forall₂ (fun pair sizes =>
      ((g.settings pair.1 pair.2).batchSize, (g.settings pair.1 pair.2).instanceCount) = sizes)
      (model.units.zip values) (run.unitConfigs.map ModelConfig.sizes) := by
    rw [List.forall₂_map_right_iff]
    refine hvariants.forall₂_zip.imp ?_
    rintro ⟨unit, own⟩ variant ⟨⟨hunit, hown⟩, hvariant⟩
    have hresolved := hvariant.resolved hbounds (isObject_of_mem_units hmodel unit hunit)
      (hvalues own hown) (hcounts unit hunit)
    exact (Prod.ext hresolved.reads_batchSize hresolved.reads_instanceCount).symm
  have hunits : g.unitSizes model.units values = run.unitConfigs.map ModelConfig.sizes := by
    rw [← List.forall₂_map_left_iff, List.forall₂_eq_eq_eq] at hsizes
    rw [← hsizes, unitSizes, unitSettings, ← List.map_uncurry_zip_eq_zipWith, List.map_map]
    rfl
  exact congrArg₂ Decision.mk hunits.symm hconcurrency

/-- Two runs of a model, of which the second one has no less of anything that is decided: in all
units no lesser batch size and no fewer instances, and no lesser concurrency. -/
structure Grows (model : ServedModel) (run larger : ModelRun) : Prop where
  name : run.model = model.name ∧ larger.model = model.name
  length_units : run.unitConfigs.length = model.unitCount
  units : List.Forall₂ (fun variant other => variant.maxBatchSize ≤ other.maxBatchSize ∧
    variant.instanceCount ≤ other.instanceCount) run.unitConfigs larger.unitConfigs
  concurrency : run.flags.concurrency ≤ larger.flags.concurrency

/-- The runs of a model at values that grow do not shrink. -/
lemma IsRun.grows (hbounds : g.ValidBounds) (hmodel : model.WellFormed)
    (hcounts : ∀ unit ∈ model.units, unit.baseline.instanceCount ≤ maxSigned)
    (hvalues : ∀ own ∈ values, CountValues own) (hothers : ∀ own ∈ others, CountValues own)
    (hle : List.Forall₂ Fields.AtMost values others) (hlength : model.unitCount ≤ values.length)
    (h : IsRun g names false model (g.draftsOf model values) run)
    (h' : IsRun g names' false model (g.draftsOf model others) larger) :
    Grows model run larger := by
  obtain ⟨-, hvariants⟩ := h.unitConfigs (length_draftsOf hlength)
  have hdecision := decision_mono hbounds.checked model (fun own hown => (hvalues own hown).positive)
    hle
  rw [← h.decision_eq hbounds hmodel hcounts hvalues hlength,
    ← h'.decision_eq hbounds hmodel hcounts hothers (hle.length_eq ▸ hlength)] at hdecision
  refine ⟨?_, hvariants.length_eq.symm.trans (length_draftsOf hlength), ?_, hdecision.concurrency⟩
  · obtain ⟨variants, config, -, -, rfl⟩ := h
    obtain ⟨variants', config', -, -, rfl⟩ := h'
    exact ⟨rfl, rfl⟩
  · exact List.forall₂_map_right_iff.mp (List.forall₂_map_left_iff.mp hdecision.units)

end Generator

/-! ### All models -/

namespace Session

open Generator

/-- Take two coordinates of the right size, the second one no less in any slot, each after any calls
on a new generator over models that were built, with instances that fit the signed range.  While every
entity has fewer than `2 ^ 64` names both have configurations.  Whenever they do, these have runs for
every model, and the one at the second coordinate has no lesser batch size and no fewer instances in
any unit, and no lesser concurrency. -/
theorem call_configAt_mono {space : SearchSpace} {bounds : Bounds} {models : List ServedModel}
    {registry : VariantNames} {g : Generator}
    (hg : Generator.create space bounds models (some registry) = .ok g)
    (hmodels : ∀ model ∈ models, model.IsBuilt) (hfits : bounds.Fits)
    (hcounts : ∀ model ∈ models, ∀ unit ∈ model.units, unit.baseline.instanceCount ≤ maxSigned)
    {c larger : Coordinate} (hle : List.Forall₂ (· ≤ ·) c.slots larger.slots)
    (hc : c.size = space.dimensions.slots.length) (calls others : List SessionCall) :
    let answer := ((Session.mk g registry).run calls).call (.configAt c)
    let other := ((Session.mk g registry).run others).call (.configAt larger)
    (answer.2.names.HasRoom → ∃ config, answer.1 = .ok (.config config)) ∧
    (other.2.names.HasRoom → ∃ config, other.1 = .ok (.config config)) ∧
    ∀ config config', answer.1 = .ok (.config config) → other.1 = .ok (.config config') →
      config.models.length = models.length ∧ config'.models.length = models.length ∧
      ∀ before model rest, models = before ++ model :: rest → ∃ run run',
        config.models[before.length]? = some run ∧ config'.models[before.length]? = some run' ∧
          Grows model run run' := by
  intro answer other
  obtain ⟨hnew, -, hchecked, -⟩ := create_eq_ok hg
  have hbounds : g.ValidBounds := by
    rw [hnew]
    exact ⟨hchecked, hfits⟩
  have hc' : larger.size = space.dimensions.slots.length := hle.length_eq.symm.trans hc
  have hvalues : space.dimensions.valuesAt c = .ok _ := if_pos hc
  have hvalues' : space.dimensions.valuesAt larger = .ok _ := if_pos hc'
  obtain ⟨hanswers, hruns⟩ := call_configAt_runs hg calls hvalues
  obtain ⟨hanswers', hruns'⟩ := call_configAt_runs hg others hvalues'
  refine ⟨hanswers, hanswers', ?_⟩
  intro config config' hconfig hconfig'
  obtain ⟨hcount, hruns⟩ := hruns config hconfig
  obtain ⟨hcount', hruns'⟩ := hruns' config' hconfig'
  refine ⟨hcount, hcount', ?_⟩
  intro before model rest hsplit
  obtain ⟨hlength, run, hrun, hisRun⟩ := hruns before model rest hsplit
  obtain ⟨-, run', hrun', hisRun'⟩ := hruns' before model rest hsplit
  have hmem : model ∈ models := hsplit ▸ List.mem_append_cons_self
  have hdropped : List.Forall₂ Fields.AtMost (List.drop (countUnits before) _)
      (List.drop (countUnits before) _) :=
    List.forall₂_drop _ (DimensionSet.valuesAt_mono hle hvalues hvalues')
  exact ⟨run, run', hrun, hrun', hisRun.grows hbounds (hmodels model hmem).wellFormed
    (hcounts model hmem)
    (fun own hown => countValues_of_valuesAt hvalues own (List.mem_of_mem_drop hown))
    (fun own hown => countValues_of_valuesAt hvalues' own (List.mem_of_mem_drop hown))
    hdropped hlength hisRun'⟩

/-- An ensemble whose first stage has a concurrency of its own, and whose second one has the greatest
batch size there is, does not get less than with a small one. -/
theorem call_configAt_mono_of_large_slots :
    let space : SearchSpace := { dimensions := mixedDimensions, mode := .coordinate }
    ∃ g, Generator.create space {} [streaming, pipeline] (some .empty) = .ok g ∧
      ∃ config config' run run',
        ((Session.mk g .empty).call (.configAt ⟨[0, 3, 6, 1]⟩)).1 = .ok (.config config) ∧
        (((Session.mk g .empty).run [.next]).call (.configAt ⟨[0, 3, 6, 4294967295]⟩)).1 =
          .ok (.config config') ∧
        config.models[1]? = some run ∧ config'.models[1]? = some run' ∧
          Grows pipeline run run' := by
  intro space
  have hg : Generator.create space {} [streaming, pipeline] (some .empty) = .ok
      { space, bounds := {}, models := [streaming, pipeline], cursor := mixedDimensions.start } :=
    rfl
  refine ⟨_, hg, ?_⟩
  have hcounts : ∀ model ∈ [streaming, pipeline], ∀ unit ∈ model.units,
      unit.baseline.instanceCount ≤ maxSigned := by decide +kernel
  have hle : List.Forall₂ (· ≤ ·) [0, 3, 6, 1] [0, 3, 6, (4294967295 : UInt32)] := by simp
  obtain ⟨hanswers, hanswers', hgrows⟩ := @call_configAt_mono _ _ _ _ _ hg
    isBuilt_streaming_pipeline Bounds.fits_empty hcounts ⟨[0, 3, 6, 1]⟩ ⟨[0, 3, 6, 4294967295]⟩ hle rfl []
    [.next]
  obtain ⟨config, hconfig⟩ := hanswers (VariantNames.hasRoom_of_entities (by decide +kernel))
  obtain ⟨config', hconfig'⟩ := hanswers' (VariantNames.hasRoom_of_entities (by decide +kernel))
  obtain ⟨-, -, hruns⟩ := hgrows config config' hconfig hconfig'
  obtain ⟨run, run', hrun, hrun', hpipeline⟩ := hruns [streaming] pipeline [] rfl
  exact ⟨config, config', run, run', hconfig, hconfig', hrun, hrun', hpipeline⟩

end Session

end ServingTuner
